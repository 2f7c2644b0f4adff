import Mathlib.Data.List.Nodup
import TemplateLexer.Options.Json
import TemplateLexer.Proofs.Json.Spelling

/-!
# Options read from whatever members an object has

An object of options is a list of members, each of which gives a setting or has
a name that is none.  As long as no setting is given twice, the object reads as
the defaults with the given settings in their place.  Members of other names
are skipped, and the order of the members does not matter.  The second key of a
setting is an error whatever stands behind it.
-/

namespace TemplateLexer

open Json

namespace Options

inductive Setting where
  | recovery (chosen : Recovery)
  | trim (mode : TrimMode)
  deriving DecidableEq, Repr

namespace Setting

def key : Setting → Text
  | recovery _ => recoveryKey
  | trim _ => trimKey

def override (options : Options) : Setting → Options
  | recovery chosen => { options with recovery := chosen }
  | trim mode => { options with trim := mode }

def IsWritten : Setting → Text → Prop
  | recovery chosen, text => Recovery.choice.IsWritten chosen text
  | trim mode, text => TrimMode.choice.IsWritten mode text

end Setting

/-- What a member is for: a setting, or something of another name. -/
inductive Entry where
  | setting (given : Setting)
  | unknown (name : Text) (ne_recovery : name ≠ recoveryKey) (ne_trim : name ≠ trimKey)

namespace Entry

def key : Entry → Text
  | setting given => given.key
  | unknown name _ _ => name

def IsWritten : Entry → Text → Prop
  | setting given, text => given.IsWritten text
  | unknown _ _ _, text => IsValue text

def settings : Entry → List Setting
  | setting given => [given]
  | unknown _ _ _ => []

end Entry

/-- A member as it is written, with the blanks around its parts. -/
structure Member where
  entry : Entry
  beforeKey : Blanks
  key : Text
  behindKey : Blanks
  behindColon : Blanks
  value : Text
  behindValue : Blanks
  key_spells : Spells key entry.key
  value_written : entry.IsWritten value

namespace Member

def body (member : Member) : Text :=
  member.key ++ '"' :: (member.behindKey.val ++ ':' :: (member.behindColon.val ++
    (member.value ++ member.behindValue.val)))

def text (member : Member) : Text :=
  member.beforeKey.val ++ '"' :: member.body

end Member

def settings (members : List Member) : List Setting :=
  members.flatMap fun member => member.entry.settings

def joined : List Member → Text
  | [] => []
  | member :: members => member.text ++ members.flatMap fun other => ',' :: other.text

/-- An object of the members, which may be none, with blanks inside and around it. -/
def objectText (front inside : Blanks) (members : List Member) (back : Blanks) : Text :=
  front.val ++ '{' :: (inside.val ++ (joined members ++ '}' :: back.val))

/-! ## Settings given -/

def Given.add (given : Given) : Setting → Given
  | .recovery chosen => { given with recovery := some chosen }
  | .trim mode => { given with trim := some mode }

def Given.of (settings : List Setting) : Given :=
  settings.foldl Given.add {}

section

variable {given : Given} {setting : Setting} {seen later : List Setting} {members : List Member}
  {key code text value rest : Text} {first : Bool}

theorem Given.of_append (seen later : List Setting) :
    Given.of (seen ++ later) = later.foldl Given.add (Given.of seen) :=
  List.foldl_append

theorem recoveryKey_ne_trimKey : recoveryKey ≠ trimKey := by
  decide

theorem isSome_foldl_add (given : Given) (later : List Setting) :
    ((later.foldl Given.add given).recovery.isSome ↔
      given.recovery.isSome ∨ recoveryKey ∈ later.map Setting.key) ∧
    ((later.foldl Given.add given).trim.isSome ↔
      given.trim.isSome ∨ trimKey ∈ later.map Setting.key) := by
  induction later generalizing given with
  | nil => simp
  | cons setting later ih =>
      obtain ⟨hrecovery, htrim⟩ := ih (given.add setting)
      rw [List.foldl_cons, hrecovery, htrim]
      cases setting with
      | recovery => simp [Given.add, Setting.key, recoveryKey_ne_trimKey.symm]
      | trim => simp [Given.add, Setting.key, recoveryKey_ne_trimKey]

theorem isSome_recovery_of :
    (Given.of seen).recovery.isSome ↔ recoveryKey ∈ seen.map Setting.key := by
  simp [Given.of, (isSome_foldl_add {} seen).1]

theorem isSome_trim_of : (Given.of seen).trim.isSome ↔ trimKey ∈ seen.map Setting.key := by
  simp [Given.of, (isSome_foldl_add {} seen).2]

theorem complete_add (given : Given) (setting : Setting) :
    (given.add setting).complete = setting.override given.complete := by
  cases setting <;> rfl

theorem complete_of (settings : List Setting) :
    (Given.of settings).complete = settings.foldl Setting.override {} := by
  have hcomplete (given : Given) :
      (settings.foldl Given.add given).complete = settings.foldl Setting.override given.complete := by
    induction settings generalizing given with
    | nil => rfl
    | cons setting settings ih => rw [List.foldl_cons, ih, complete_add, List.foldl_cons]
  exact hcomplete {}

theorem foldl_override_eq_of_perm (hnodup : (seen.map Setting.key).Nodup) (h : seen.Perm later)
    (options : Options) :
    seen.foldl Setting.override options = later.foldl Setting.override options := by
  refine h.foldl_eq' (fun setting hsetting other hother options => ?_) options
  cases setting with
  | recovery chosen =>
      cases other with
      | recovery chosen' =>
          have heq := List.inj_on_of_nodup_map hnodup hsetting hother rfl
          rw [heq]
      | trim mode' => rfl
  | trim mode =>
      cases other with
      | recovery chosen' => rfl
      | trim mode' =>
          have heq := List.inj_on_of_nodup_map hnodup hsetting hother rfl
          rw [heq]

/-! ## One member -/

theorem find?_recovery_name (recovery : Recovery) :
    (Recovery.choice.values.find? fun other => other.name == recovery.name) = some recovery := by
  cases recovery <;> decide

theorem find?_trim_name (mode : TrimMode) :
    (TrimMode.choice.values.find? fun other => other.name == mode.name) = some mode := by
  cases mode <;> decide

theorem readMember_setting (setting : Setting) (hnew : setting.key ∉ seen.map Setting.key)
    (hspells : Spells code setting.key) (hwritten : setting.IsWritten value)
    (behindKey behindColon : Blanks) (rest : Text) :
    readMember (Given.of seen)
        (code ++ '"' :: (behindKey.val ++ ':' :: (behindColon.val ++ (value ++ rest)))) =
      .ok (Given.of (seen ++ [setting]), rest) := by
  obtain ⟨escaped, hkey⟩ := readString_append hspells
    (behindKey.val ++ ':' :: (behindColon.val ++ (value ++ rest)))
  rw [Given.of_append]
  simp only [readMember, hkey, bind, Except.bind, skipMark_append,
    skipMark_cons (by decide : isBlank ':' = false)]
  cases setting with
  | recovery chosen =>
      have hnone : ¬ (Given.of seen).recovery.isSome := by rwa [isSome_recovery_of]
      have hvalue := Choice.readBare_append (find?_recovery_name chosen) hwritten behindColon rest
      simp only [Setting.key, if_true, if_neg hnone, hvalue]
      rfl
  | trim mode =>
      have hnone : ¬ (Given.of seen).trim.isSome := by rwa [isSome_trim_of]
      have hvalue := Choice.readBare_append (find?_trim_name mode) hwritten behindColon rest
      simp only [Setting.key, if_neg recoveryKey_ne_trimKey.symm, if_true, if_neg hnone, hvalue]
      rfl

theorem readMember_unknown {name : Text} (ne_recovery : name ≠ recoveryKey)
    (ne_trim : name ≠ trimKey) (hspells : Spells code name) (hvalue : IsValue value)
    (behindKey behindColon : Blanks) (hrest : EndsNumeral rest) :
    readMember given
        (code ++ '"' :: (behindKey.val ++ ':' :: (behindColon.val ++ (value ++ rest)))) =
      .ok (given, rest) := by
  obtain ⟨escaped, hkey⟩ := readString_append hspells
    (behindKey.val ++ ':' :: (behindColon.val ++ (value ++ rest)))
  simp only [readMember, hkey, if_neg ne_recovery, if_neg ne_trim, bind, Except.bind,
    skipMark_append, skipMark_cons (by decide : isBlank ':' = false),
    skipValue_append hvalue behindColon hrest]

theorem readMember_body (member : Member)
    (hnew : ∀ setting ∈ member.entry.settings, setting.key ∉ seen.map Setting.key)
    (hrest : EndsNumeral rest) :
    readMember (Given.of seen) (member.body ++ rest) =
      .ok (Given.of (seen ++ member.entry.settings), member.behindValue.val ++ rest) := by
  simp only [Member.body, List.append_assoc, List.cons_append]
  cases member with
  | mk entry _ key behindKey behindColon value behindValue key_spells value_written =>
      cases entry with
      | setting setting =>
          have hsetting := hnew setting (by simp [Entry.settings])
          exact readMember_setting setting hsetting key_spells value_written behindKey behindColon _
      | unknown name ne_recovery ne_trim =>
          rw [Entry.settings, List.append_nil]
          exact readMember_unknown ne_recovery ne_trim key_spells value_written behindKey
            behindColon (endsNumeral_append behindValue hrest)

theorem readMember_duplicate (hkey : key ∈ seen.map Setting.key) (hspells : Spells code key)
    (rest : Text) :
    readMember (Given.of seen) (code ++ '"' :: rest) = reject (.duplicateField key) := by
  obtain ⟨escaped, hread⟩ := readString_append hspells rest
  obtain ⟨setting, -, rfl⟩ := List.mem_map.mp hkey
  simp only [readMember, hread, bind, Except.bind]
  cases setting with
  | recovery chosen =>
      have hgiven : (Given.of seen).recovery.isSome := isSome_recovery_of.mpr hkey
      simp only [Setting.key, if_true, if_pos hgiven]
  | trim mode =>
      have hgiven : (Given.of seen).trim.isSome := isSome_trim_of.mpr hkey
      simp only [Setting.key, if_neg recoveryKey_ne_trimKey.symm, if_true, if_pos hgiven]

theorem readMemberStart_append (first : Bool) (blanks : Blanks) (text : Text) :
    readMemberStart first (blanks.val ++ text) = readMemberStart first text := by
  rw [readMemberStart, skipBlank_append, readMemberStart]

theorem readMemberStart_quote (blanks : Blanks) (text : Text) :
    readMemberStart true (blanks.val ++ '"' :: text) = .ok (.key text) := by
  rw [readMemberStart_append, readMemberStart, skipBlank_of_not_isBlank rfl]
  rfl

theorem readMemberStart_comma (blanks : Blanks) (text : Text) :
    readMemberStart false (',' :: (blanks.val ++ '"' :: text)) = .ok (.key text) := by
  rw [readMemberStart, skipBlank_of_not_isBlank rfl]
  simp only [skipMark_append, skipMark_cons (by decide : isBlank '"' = false)]
  rfl

theorem readMemberStart_brace (first : Bool) (text : Text) :
    readMemberStart first ('}' :: text) = .ok (.closed text) := by
  rw [readMemberStart, skipBlank_of_not_isBlank rfl]
  rfl

def resumeMembers (given : Given) :
    Except ReadError MemberStart → Except ReadError (Given × Text)
  | .error error => .error error
  | .ok (.closed rest) => .ok (given, rest)
  | .ok (.key rest) => do
      let (given, rest) ← readMember given rest
      readMembers false given rest

theorem readMembers_eq_resumeMembers (first : Bool) (given : Given) (text : Text) :
    readMembers first given text = resumeMembers given (readMemberStart first text) := by
  rw [readMembers.eq_def]
  split
  · next hstart => rw [hstart, resumeMembers]
  · next hstart => rw [hstart, resumeMembers]
  · next hstart =>
      rw [hstart, resumeMembers]
      split
      · next hmember => rw [hmember]; rfl
      · next hmember => rw [hmember]; rfl

theorem readMembers_append (first : Bool) (given : Given) (blanks : Blanks) (text : Text) :
    readMembers first given (blanks.val ++ text) = readMembers first given text := by
  rw [readMembers_eq_resumeMembers, readMemberStart_append, ← readMembers_eq_resumeMembers]

theorem readMembers_brace (first : Bool) (given : Given) (rest : Text) :
    readMembers first given ('}' :: rest) = .ok (given, rest) := by
  rw [readMembers_eq_resumeMembers, readMemberStart_brace, resumeMembers]

theorem readMembers_of_key (h : readMemberStart first text = .ok (.key rest)) :
    readMembers first given text = (do
      let (given, rest) ← readMember given rest
      readMembers false given rest) := by
  rw [readMembers_eq_resumeMembers, h, resumeMembers]

theorem readMembers_body (member : Member)
    (h : readMemberStart first text = .ok (.key (member.body ++ rest)))
    (hnew : ∀ setting ∈ member.entry.settings, setting.key ∉ seen.map Setting.key)
    (hrest : EndsNumeral rest) :
    readMembers first (Given.of seen) text =
      readMembers false (Given.of (seen ++ member.entry.settings)) rest := by
  rw [readMembers_of_key h, readMember_body member hnew hrest]
  exact readMembers_append false _ member.behindValue rest

theorem settings_cons (member : Member) (members : List Member) :
    settings (member :: members) = member.entry.settings ++ settings members :=
  List.flatMap_cons

theorem not_mem_keys_of_nodup (h : ((seen ++ later).map Setting.key).Nodup) :
    ∀ setting ∈ later, setting.key ∉ seen.map Setting.key := by
  intro setting hsetting hseen
  rw [List.map_append, List.nodup_append] at h
  exact h.2.2 _ hseen _ (List.mem_map_of_mem hsetting) rfl

theorem endsNumeral_later (members : List Member) (hrest : EndsNumeral rest) :
    EndsNumeral ((members.flatMap fun member => ',' :: member.text) ++ rest) := by
  cases members with
  | nil => exact hrest
  | cons member members => exact endsNumeral_comma _

theorem readMembers_later (members : List Member)
    (hnodup : ((seen ++ settings members).map Setting.key).Nodup) (hrest : EndsNumeral rest) :
    readMembers false (Given.of seen)
        ((members.flatMap fun member => ',' :: member.text) ++ rest) =
      readMembers false (Given.of (seen ++ settings members)) rest := by
  induction members generalizing seen with
  | nil => simp [settings]
  | cons member members ih =>
      rw [settings_cons] at hnodup ⊢
      have hnew := not_mem_keys_of_nodup hnodup
      rw [← List.append_assoc] at hnodup ⊢
      have hstart := readMemberStart_comma member.beforeKey
        (member.body ++ ((members.flatMap fun member => ',' :: member.text) ++ rest))
      rw [← ih hnodup, ← readMembers_body member hstart
        (fun setting hmem => hnew setting (List.mem_append_left _ hmem))
        (endsNumeral_later members hrest)]
      simp [Member.text]

theorem readMembers_joined (inside : Blanks) (member : Member) (members : List Member)
    (hnodup : ((settings (member :: members)).map Setting.key).Nodup) (hrest : EndsNumeral rest) :
    readMembers true {} (inside.val ++ (joined (member :: members) ++ rest)) =
      readMembers false (Given.of (settings (member :: members))) rest := by
  rw [settings_cons] at hnodup ⊢
  have hstart := readMemberStart_quote member.beforeKey
    (member.body ++ ((members.flatMap fun member => ',' :: member.text) ++ rest))
  rw [← readMembers_later members hnodup hrest, readMembers_append]
  rw [← List.nil_append member.entry.settings, ← readMembers_body member hstart (by simp)
    (endsNumeral_later members hrest)]
  simp [joined, Member.text, Given.of]

/-! ## Whole objects -/

theorem readJson_brace (front : Blanks) (text : Text) :
    readJson (front.val ++ '{' :: text) =
      (readMembers true {} text).map fun (given, rest) => (given.complete, rest) := by
  rw [readJson, skipBlank_append, skipBlank_of_not_isBlank rfl]
  rfl

theorem ofJson_of_readMembers (front back : Blanks)
    (h : readMembers true {} text = .ok (given, back.val)) :
    ofJson (front.val ++ '{' :: text) = .ok given.complete := by
  have hback : skipBlank back.val = [] := by
    simpa [skipBlank] using back.property
  rw [ofJson, readAll, readJson_brace, h]
  simp only [Except.map, bind, Except.bind, hback]

theorem ofJson_of_readMembers_error (front : Blanks) {error : ReadError}
    (h : readMembers true {} text = .error error) :
    ofJson (front.val ++ '{' :: text) = .error error := by
  rw [ofJson, readAll, readJson_brace, h]
  rfl

theorem ofJson_objectText (front inside back : Blanks) (members : List Member)
    (hnodup : ((settings members).map Setting.key).Nodup) :
    ofJson (objectText front inside members back) =
      .ok ((settings members).foldl Setting.override {}) := by
  rw [objectText, ← complete_of]
  refine ofJson_of_readMembers front back ?_
  cases members with
  | nil =>
      rw [joined, List.nil_append, readMembers_append, readMembers_brace]
      rfl
  | cons member members =>
      have hends : EndsNumeral ('}' :: back.val) := endsNumeral_closer .object back.val
      rw [readMembers_joined inside member members hnodup hends, readMembers_brace]

theorem ofJson_duplicate (front inside before : Blanks) (members : List Member)
    (hnodup : ((settings members).map Setting.key).Nodup)
    (hkey : key ∈ (settings members).map Setting.key) (hspells : Spells code key) (rest : Text) :
    ofJson (front.val ++ '{' :: (inside.val ++ (joined members ++
        ',' :: (before.val ++ '"' :: (code ++ '"' :: rest))))) =
      .error (.rejected (.duplicateField key)) := by
  refine ofJson_of_readMembers_error front ?_
  cases members with
  | nil => cases hkey
  | cons member members =>
      have hstart := readMemberStart_comma before (code ++ '"' :: rest)
      rw [readMembers_joined inside member members hnodup (endsNumeral_comma _),
        readMembers_of_key hstart, readMember_duplicate hkey hspells rest]
      rfl

end

/--
An object in which no setting is given twice reads as the defaults with the
settings in their place, however its names are spelled and whatever values its
other members have.  So an object with the same settings reads alike, in
whatever order they stand and among whatever other members.  Where a setting is
given a second time, its key is the error that is reported, whatever follows it.
-/
theorem options_of_any_members :
    (∀ (front inside back : Blanks) (members : List Member),
      ((settings members).map Setting.key).Nodup →
        ofJson (objectText front inside members back) =
          .ok ((settings members).foldl Setting.override {})) ∧
      (∀ (front inside back front' inside' back' : Blanks) (members members' : List Member),
        ((settings members).map Setting.key).Nodup →
        (settings members).Perm (settings members') →
          ofJson (objectText front inside members back) =
            ofJson (objectText front' inside' members' back')) ∧
      ∀ (front inside before : Blanks) (members : List Member) (key code rest : Text),
        ((settings members).map Setting.key).Nodup →
        key ∈ (settings members).map Setting.key → Spells code key →
          ∃ cause,
            ofJson (front.val ++ '{' :: (inside.val ++ (joined members ++
                ',' :: (before.val ++ '"' :: (code ++ '"' :: rest))))) =
              .error (.rejected cause) ∧
            cause.message = "duplicate field `".toList ++ key ++ ['`'] := by
  refine ⟨ofJson_objectText, ?_, ?_⟩
  · intro front inside back front' inside' back' members members' hnodup hperm
    have hnodup' : ((settings members').map Setting.key).Nodup :=
      (hperm.map Setting.key).nodup_iff.mp hnodup
    rw [ofJson_objectText _ _ _ _ hnodup, ofJson_objectText _ _ _ _ hnodup',
      foldl_override_eq_of_perm hnodup hperm]
  · intro front inside before members key code rest hnodup hkey hspells
    exact ⟨.duplicateField key, ofJson_duplicate front inside before members hnodup hkey hspells
      rest, rfl⟩

def nestedMember : Member where
  entry := .unknown ['x'] (by decide) (by decide)
  beforeKey := .none
  key := ['x']
  behindKey := .none
  behindColon := .none
  value := ['[', '{', '"', '}', '"', ':', '[', ' ', ']', '}', ',', '-', '1', '.', '5', 'e', '3', ']']
  behindValue := ⟨[' '], List.forall_mem_singleton.mpr rfl⟩
  key_spells := .plain 'x' (by decide) .nil
  value_written := by
    have hdigits (c : Char) (hc : c.isDigit = true) : IsDigits [c] :=
      ⟨by simp, by simpa using hc⟩
    have hnumeral : IsJson .value ['-', '1', '.', '5', 'e', '3'] :=
      .scalar (.negative (.mk ⟨hdigits '1' rfl, .inr (by decide)⟩ (.digits (hdigits '5' rfl))
        (.unsigned 'e' (.inl rfl) (hdigits '3' rfl))))
    have hobject : IsJson .value ['{', '"', '}', '"', ':', '[', ' ', ']', '}'] :=
      .enclosed .object (.last (.object .none .none (.plain '}' (by decide) .nil)) .none .none
        (.empty .array ⟨[' '], List.forall_mem_singleton.mpr rfl⟩))
    exact IsJson.enclosed .array (.more .array .none .none hobject
      (.last .array .none .none hnumeral))

def respelledMember : Member where
  entry := .setting (.trim .legacy)
  beforeKey := .none
  key := ['\\', 'u', '0', '0', '7', '4', 'r', 'i', 'm']
  behindKey := .none
  behindColon := ⟨['\n'], List.forall_mem_singleton.mpr rfl⟩
  value := ['"', 'l', 'e', 'g', 'a', 'c', 'y', '"']
  behindValue := .none
  key_spells := .escaped 't' (.code '0' '0' '7' '4' (by decide))
    (.plain 'r' (by decide) (.plain 'i' (by decide) (.plain 'm' (by decide) .nil)))
  value_written := by
    have hname : Spells ['l', 'e', 'g', 'a', 'c', 'y'] (TrimMode.choice.name .legacy) :=
      spells_of_isPlain (by simp [IsPlain])
    exact Choice.IsWritten.name hname

theorem options_of_nested_and_respelled :
    let members := [nestedMember, respelledMember]
    ((settings members).map Setting.key).Nodup ∧
      (settings members).Perm (settings members.reverse) ∧
      ofJson (objectText .none .none members .none) = .ok { trim := .legacy } ∧
      ofJson (objectText .none .none members.reverse .none) = .ok { trim := .legacy } ∧
      trimKey ∈ (settings members).map Setting.key ∧ Spells trimKey trimKey ∧
      ∃ cause,
        ofJson ('{' :: (joined members ++ ',' :: '"' :: (trimKey ++ '"' :: [']', '?']))) =
          .error (.rejected cause) ∧
        cause.message = "duplicate field `trim`".toList := by
  intro members
  obtain ⟨hread, hperm, hduplicate⟩ := options_of_any_members
  have hnodup : ((settings members).map Setting.key).Nodup := by decide
  have hsame : (settings members).Perm (settings members.reverse) := .refl _
  have hspells : Spells trimKey trimKey := spells_of_isPlain (by simp [trimKey, IsPlain])
  have hkey : trimKey ∈ (settings members).map Setting.key := by decide
  have hmembers : ofJson (objectText .none .none members .none) = .ok { trim := .legacy } :=
    hread .none .none .none members hnodup
  refine ⟨hnodup, hsame, hmembers, ?_, hkey, hspells,
    hduplicate .none .none .none members trimKey trimKey [']', '?'] hnodup hkey hspells⟩
  rw [← hperm .none .none .none .none .none .none members members.reverse hnodup hsame]
  exact hmembers

/--
The escape of half a pair of surrogates may stand in a key as in any string, but
no text is spelled so.  The member is not skipped as one of another name would be.
-/
theorem ofJson_of_unpaired_surrogate :
    let code : Text := ['\\', 'u', 'd', '8', '0', '0']
    IsJson (.items .object) ('"' :: (code ++ ['"', ':', '1'])) ∧
      (∀ name, ¬ Spells code name) ∧
      ofJson ('{' :: '"' :: (code ++ ['"', ':', '1', '}'])) = .error .malformed := by
  intro code
  have hcode : IsStringCode code := .unit 'd' '8' '0' '0' 0xD800 (by decide) .nil
  have hkey : IsKey .object ['"', '\\', 'u', 'd', '8', '0', '0', '"', ':'] :=
    .object .none .none hcode
  have hdigit : IsDigits ['1'] := ⟨by simp, List.forall_mem_singleton.mpr rfl⟩
  have hone : IsJson .value ['1'] :=
    .scalar (.number (.mk ⟨hdigit, .inr (by decide)⟩ .none .none))
  have hread (rest : Text) : readString (code ++ '"' :: rest) = .error .malformed := by
    rw [readString.eq_def]
    rfl
  refine ⟨.last hkey .none .none hone, fun name hspells => ?_, ?_⟩
  · obtain ⟨escaped, hname⟩ := readString_append hspells []
    cases (hread []).symm.trans hname
  · have hstart := readMemberStart_quote .none (code ++ ['"', ':', '1', '}'])
    refine ofJson_of_readMembers_error .none ((readMembers_of_key hstart).trans ?_)
    rw [readMember, hread]
    rfl

end Options

end TemplateLexer
