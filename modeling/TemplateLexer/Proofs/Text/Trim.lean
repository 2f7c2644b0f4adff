import TemplateLexer.Text.Trim

/-!
# What trimming keeps

A text has one core: the part between its outer runs of a character, which
neither begins nor ends with that character.  The standard mode keeps exactly
the core.
-/

namespace TemplateLexer

namespace Text

def Trimmed (ch : Char) (text : Text) : Prop :=
  text.head? ≠ some ch ∧ text.getLast? ≠ some ch

instance (ch : Char) (text : Text) : Decidable (Trimmed ch text) :=
  inferInstanceAs (Decidable (_ ∧ _))

section

variable {ch c : Char} {text front core back part : Text} {offset : Nat}

theorem slice?_append :
    slice? (front ++ part ++ back) (byteLength front) (byteLength (front ++ part)) =
      some part := by
  simp [slice?, splitAt?_append]

@[simp] theorem charIndicesFrom_append :
    charIndicesFrom offset (front ++ back) =
      charIndicesFrom offset front ++ charIndicesFrom (offset + byteLength front) back := by
  induction front generalizing offset with
  | nil => simp [charIndicesFrom]
  | cons c front ih => simp [charIndicesFrom, ih, Nat.add_assoc]

theorem mem_of_mem_charIndicesFrom {position : Nat}
    (h : (position, c) ∈ charIndicesFrom offset text) : c ∈ text := by
  induction text generalizing offset with
  | nil => simp [charIndicesFrom] at h
  | cons d text ih =>
      rw [charIndicesFrom, List.mem_cons] at h
      rcases h with heq | hmem
      · cases heq
        exact List.mem_cons_self
      · exact List.mem_cons_of_mem d (ih hmem)

theorem find?_charIndicesFrom_eq_none (h : ∀ c ∈ text, c = ch) :
    (charIndicesFrom offset text).find? (fun (_, c) => c ≠ ch) = none := by
  rw [List.find?_eq_none]
  rintro ⟨position, c⟩ hmem
  simpa using h c (mem_of_mem_charIndicesFrom hmem)

theorem find?_reverse_charIndicesFrom_eq_none (h : ∀ c ∈ text, c = ch) :
    (charIndicesFrom offset text).reverse.find? (fun (_, c) => c ≠ ch) = none := by
  rw [List.find?_eq_none]
  rintro ⟨position, c⟩ hmem
  simpa using h c (mem_of_mem_charIndicesFrom (List.mem_reverse.mp hmem))

theorem firstOther?_eq_none (h : ∀ c ∈ text, c = ch) : firstOther? ch text = none := by
  rw [firstOther?, charIndices, find?_charIndicesFrom_eq_none h, Option.map_none]

theorem firstOther?_append_cons (hfront : ∀ c ∈ front, c = ch) (hc : c ≠ ch) :
    firstOther? ch (front ++ c :: back) = some (byteLength front) := by
  rw [firstOther?, charIndices, charIndicesFrom_append, List.find?_append,
    find?_charIndicesFrom_eq_none hfront]
  simp [charIndicesFrom, hc]

theorem lastOther?_eq_none (h : ∀ c ∈ text, c = ch) : lastOther? ch text = none := by
  rw [lastOther?, charIndices, find?_reverse_charIndicesFrom_eq_none h, Option.map_none]

theorem lastOther?_append_cons (hback : ∀ c ∈ back, c = ch) (hc : c ≠ ch) :
    lastOther? ch (front ++ c :: back) = some (byteLength (front ++ [c])) := by
  rw [lastOther?, charIndices, charIndicesFrom_append, charIndicesFrom, List.reverse_append,
    List.reverse_cons, List.find?_append, List.find?_append,
    find?_reverse_charIndicesFrom_eq_none hback]
  simp [hc]

theorem firstOther?_eq_core (hfront : ∀ c ∈ front, c = ch) (hcore : Trimmed ch core)
    (hne : core ≠ []) : firstOther? ch (front ++ core ++ back) = some (byteLength front) := by
  obtain ⟨first, tail, rfl⟩ := List.exists_cons_of_ne_nil hne
  rw [List.append_assoc, List.cons_append]
  exact firstOther?_append_cons hfront (by simpa using hcore.1)

theorem lastOther?_eq_core (hback : ∀ c ∈ back, c = ch) (hcore : Trimmed ch core)
    (hne : core ≠ []) :
    lastOther? ch (front ++ core ++ back) = some (byteLength (front ++ core)) := by
  obtain ⟨init, last, hlast⟩ := core.eq_nil_or_concat.resolve_left hne
  rw [List.concat_eq_append] at hlast
  have hother : last ≠ ch := by simpa [hlast] using hcore.2
  have hfound : lastOther? ch (front ++ init ++ last :: back) = _ :=
    lastOther?_append_cons hback hother
  simpa [hlast] using hfound

/-! ## Standard trimming -/

theorem trim_standard_eq_core (hfront : ∀ c ∈ front, c = ch) (hback : ∀ c ∈ back, c = ch)
    (hcore : Trimmed ch core) : trim .standard ch (front ++ core ++ back) = core := by
  by_cases hne : core = []
  · subst hne
    have hall : ∀ c ∈ front ++ [] ++ back, c = ch := by
      simpa [or_imp, forall_and] using And.intro hfront hback
    rw [trim, firstOther?_eq_none hall]
  · rw [trim, firstOther?_eq_core hfront hcore hne, lastOther?_eq_core hback hcore hne]
    simp only [slice?_append, Option.getD_some]

theorem trim_standard_replicate (before after : Nat) (hcore : Trimmed ch core) :
    trim .standard ch (List.replicate before ch ++ core ++ List.replicate after ch) = core :=
  trim_standard_eq_core (fun _ => List.eq_of_mem_replicate) (fun _ => List.eq_of_mem_replicate)
    hcore

theorem exists_leading_run (ch : Char) (text : Text) :
    ∃ front rest, text = front ++ rest ∧ (∀ c ∈ front, c = ch) ∧ rest.head? ≠ some ch := by
  induction text with
  | nil => exact ⟨[], [], rfl, by simp, by simp⟩
  | cons c text ih =>
      by_cases hc : c = ch
      · obtain ⟨front, rest, rfl, hfront, hrest⟩ := ih
        exact ⟨c :: front, rest, rfl, by simpa [hc] using hfront, hrest⟩
      · exact ⟨[], c :: text, rfl, by simp, by simpa using hc⟩

theorem exists_core (ch : Char) (text : Text) :
    ∃ front core back, text = front ++ core ++ back ∧ (∀ c ∈ front, c = ch) ∧
      (∀ c ∈ back, c = ch) ∧ Trimmed ch core := by
  obtain ⟨front, rest, rfl, hfront, hrest⟩ := exists_leading_run ch text
  obtain ⟨back, core, hreverse, hback, hcore⟩ := exists_leading_run ch rest.reverse
  have hsplit : rest = core.reverse ++ back.reverse := by
    rw [← List.reverse_append, ← hreverse, List.reverse_reverse]
  subst hsplit
  refine ⟨front, core.reverse, back.reverse, (List.append_assoc ..).symm, hfront, ?_, ?_, ?_⟩
  · simpa using hback
  · cases hempty : core.reverse with
    | nil => simp
    | cons c core => simpa [hempty] using hrest
  · simpa using hcore

theorem exists_trim_standard (ch : Char) (text : Text) :
    ∃ front back, text = front ++ trim .standard ch text ++ back ∧ (∀ c ∈ front, c = ch) ∧
      (∀ c ∈ back, c = ch) ∧ Trimmed ch (trim .standard ch text) := by
  obtain ⟨front, core, back, rfl, hfront, hback, hcore⟩ := exists_core ch text
  rw [trim_standard_eq_core hfront hback hcore]
  exact ⟨front, back, rfl, hfront, hback, hcore⟩

theorem trimmed_trim_standard (ch : Char) (text : Text) :
    Trimmed ch (trim .standard ch text) := by
  obtain ⟨-, -, -, -, -, htrimmed⟩ := exists_trim_standard ch text
  exact htrimmed

theorem trim_standard_eq_self (h : Trimmed ch text) : trim .standard ch text = text := by
  have hcore : trim .standard ch ([] ++ text ++ []) = text :=
    trim_standard_eq_core (by simp) (by simp) h
  simpa using hcore

/-! ## Legacy trimming -/

@[simp] theorem map_snd_charIndicesFrom (offset : Nat) (text : Text) :
    (charIndicesFrom offset text).map Prod.snd = text := by
  induction text generalizing offset with
  | nil => rfl
  | cons c text ih => simp [charIndicesFrom, ih]

theorem le_of_mem_charIndicesFrom {position : Nat}
    (h : (position, c) ∈ charIndicesFrom offset text) : offset ≤ position := by
  induction text generalizing offset with
  | nil => simp [charIndicesFrom] at h
  | cons d text ih =>
      simp only [charIndicesFrom, List.mem_cons, Prod.mk.injEq] at h
      rcases h with h | h
      · omega
      · have := ih h
        omega

theorem takeWhile_reverse_charIndices :
    (charIndices (c :: text)).reverse.takeWhile (fun (offset, _) => offset ≠ 0) =
      (charIndicesFrom c.utf8Size text).reverse := by
  have hbehind : ∀ entry ∈ (charIndicesFrom c.utf8Size text).reverse,
      decide (entry.1 ≠ 0) = true := by
    intro entry hentry
    have hposition := le_of_mem_charIndicesFrom (List.mem_reverse.mp hentry)
    have hpos := c.utf8Size_pos
    simp only [decide_eq_true_eq]
    omega
  simp only [charIndices, charIndicesFrom, Nat.zero_add, List.reverse_cons]
  rw [List.takeWhile_append_of_pos hbehind]
  simp

theorem lastOtherAfterFirst?_eq_none (h : ∀ d ∈ text.tail, d = ch) :
    lastOtherAfterFirst? ch text = none := by
  cases text with
  | nil => rfl
  | cons c text =>
      rw [List.tail_cons] at h
      rw [lastOtherAfterFirst?, takeWhile_reverse_charIndices,
        find?_reverse_charIndicesFrom_eq_none h, Option.map_none]

theorem lastOtherAfterFirst?_eq_lastOther? (h : ∃ d ∈ text.tail, d ≠ ch) :
    ∃ last, lastOtherAfterFirst? ch text = some last ∧ lastOther? ch text = some last := by
  cases text with
  | nil => simp at h
  | cons c text =>
      have hsome : ((charIndicesFrom c.utf8Size text).reverse.find?
          fun (_, d) => d ≠ ch).isSome := by
        obtain ⟨d, hmem, hd⟩ := h
        rw [List.tail_cons, ← map_snd_charIndicesFrom c.utf8Size text] at hmem
        obtain ⟨entry, hentry, rfl⟩ := List.mem_map.mp hmem
        rw [List.find?_isSome]
        exact ⟨entry, List.mem_reverse.mpr hentry, by simpa using hd⟩
      obtain ⟨found, hfound⟩ := Option.isSome_iff_exists.mp hsome
      rw [lastOtherAfterFirst?, takeWhile_reverse_charIndices, lastOther?, charIndices,
        charIndicesFrom, Nat.zero_add, List.reverse_cons, List.find?_append, hfound]
      simp

theorem exists_firstOther? (h : ∃ d ∈ text, d ≠ ch) :
    ∃ first, firstOther? ch text = some first := by
  obtain ⟨front, rest, rfl, hfront, hrest⟩ := exists_leading_run ch text
  cases rest with
  | nil =>
      obtain ⟨d, hmem, hd⟩ := h
      exact absurd (hfront d (by simpa using hmem)) hd
  | cons d rest =>
      exact ⟨_, firstOther?_append_cons hfront (by simpa using hrest)⟩

theorem getD_firstOther?_eq_zero (h : ∀ d ∈ text.tail, d = ch) :
    (firstOther? ch text).getD 0 = 0 := by
  cases text with
  | nil => rfl
  | cons c text =>
      by_cases hc : c = ch
      · rw [firstOther?_eq_none (by simpa [hc] using h), Option.getD_none]
      · have hfound : firstOther? ch ([] ++ c :: text) = some (byteLength []) :=
          firstOther?_append_cons (by simp) hc
        rw [List.nil_append] at hfound
        rw [hfound, Option.getD_some, byteLength_nil]

theorem trim_legacy_eq_self (h : ∀ d ∈ text.tail, d = ch) : trim .legacy ch text = text := by
  have hwhole : slice? ([] ++ text ++ []) 0 (byteLength ([] ++ text)) = some text :=
    slice?_append
  rw [List.append_nil, List.nil_append] at hwhole
  simp only [trim, getD_firstOther?_eq_zero h, lastOtherAfterFirst?_eq_none h, Option.getD_none,
    hwhole, Option.getD_some]

theorem trim_legacy_eq_standard (h : ∃ d ∈ text.tail, d ≠ ch) :
    trim .legacy ch text = trim .standard ch text := by
  obtain ⟨last, hlegacy, hstandard⟩ := lastOtherAfterFirst?_eq_lastOther? h
  obtain ⟨d, hmem, hd⟩ := h
  obtain ⟨first, hfirst⟩ := exists_firstOther? ⟨d, List.mem_of_mem_tail hmem, hd⟩
  simp [trim, hfirst, hlegacy, hstandard]

theorem trim_standard_trim (mode : TrimMode) (ch : Char) (text : Text) :
    trim .standard ch (trim mode ch text) = trim .standard ch text := by
  cases mode with
  | standard => exact trim_standard_eq_self (trimmed_trim_standard ch text)
  | legacy =>
      by_cases htail : ∀ d ∈ text.tail, d = ch
      · rw [trim_legacy_eq_self htail]
      · rw [trim_legacy_eq_standard (by simpa using htail)]
        exact trim_standard_eq_self (trimmed_trim_standard ch text)

theorem exists_trim (mode : TrimMode) (ch : Char) (text : Text) :
    ∃ before after,
      text = List.replicate before ch ++ trim mode ch text ++ List.replicate after ch := by
  have hstandard : ∃ before after, text =
      List.replicate before ch ++ trim .standard ch text ++ List.replicate after ch := by
    obtain ⟨front, back, hsplit, hfront, hback, -⟩ := exists_trim_standard ch text
    refine ⟨front.length, back.length, ?_⟩
    rw [← List.eq_replicate_of_mem hfront, ← List.eq_replicate_of_mem hback]
    exact hsplit
  cases mode with
  | standard => exact hstandard
  | legacy =>
      by_cases htail : ∀ d ∈ text.tail, d = ch
      · exact ⟨0, 0, by simp [trim_legacy_eq_self htail]⟩
      · rw [trim_legacy_eq_standard (by simpa using htail)]
        exact hstandard

theorem trim_isInfix (mode : TrimMode) (ch : Char) (text : Text) : trim mode ch text <:+: text := by
  obtain ⟨before, after, hsplit⟩ := exists_trim mode ch text
  exact ⟨_, _, hsplit.symm⟩

theorem not_infix_trim {marker : Text} (mode : TrimMode) (h : ¬ marker <:+: text) :
    ¬ marker <:+: trim mode ch text := fun hmarker =>
  h (hmarker.trans (trim_isInfix mode ch text))

section

variable {f : Char → Char} (hf : ∀ c, f c = ch ↔ c = ch)

include hf

theorem forall_mem_map_eq_iff : (∀ c ∈ text.map f, c = ch) ↔ ∀ c ∈ text, c = ch := by
  simp [hf]

theorem Trimmed.map (h : Trimmed ch text) : Trimmed ch (text.map f) := by
  obtain ⟨hhead, hlast⟩ := h
  constructor
  · rw [List.head?_map]
    cases hfirst : text.head? with
    | none => simp
    | some c => simpa [hf, hfirst] using hhead
  · rw [List.getLast?_map]
    cases hend : text.getLast? with
    | none => simp
    | some c => simpa [hf, hend] using hlast

theorem trim_map (mode : TrimMode) : trim mode ch (text.map f) = (trim mode ch text).map f := by
  have hstandard : trim .standard ch (text.map f) = (trim .standard ch text).map f := by
    obtain ⟨front, back, hsplit, hfront, hback, hcore⟩ := exists_trim_standard ch text
    have hmap := congrArg (List.map f) hsplit
    rw [List.map_append, List.map_append] at hmap
    rw [hmap]
    exact trim_standard_eq_core ((forall_mem_map_eq_iff hf).mpr hfront)
      ((forall_mem_map_eq_iff hf).mpr hback) (hcore.map hf)
  cases mode with
  | standard => exact hstandard
  | legacy =>
      by_cases htail : ∀ d ∈ text.tail, d = ch
      · rw [trim_legacy_eq_self htail, trim_legacy_eq_self]
        rwa [← List.map_tail, forall_mem_map_eq_iff hf]
      · have hmapped : ¬ ∀ d ∈ (text.map f).tail, d = ch := by
          rwa [← List.map_tail, forall_mem_map_eq_iff hf]
        rw [trim_legacy_eq_standard (by simpa using hmapped),
          trim_legacy_eq_standard (by simpa using htail), hstandard]

end

end

end Text

end TemplateLexer
