import Mathlib.Data.List.DropRight
import TemplateLexer.Proofs.Text.Trim

/-!
# What each trim mode returns, and one trim after another

The standard mode returns the core of a text, and the legacy mode either all of
the text or the core too.  The two offsets that a mode computes are places to
cut the text, the first not behind the second.  A trimmed text offers nothing
more to either mode, so of several trims in a row it only matters whether one
of them was a standard one.
-/

namespace TemplateLexer

namespace Text

section

variable {ch : Char} {text front core back part kept : Text}

theorem eq_trim_standard_iff :
    kept = trim .standard ch text ↔
      (∃ before after, text = List.replicate before ch ++ kept ++ List.replicate after ch) ∧
        Trimmed ch kept := by
  constructor
  · rintro rfl
    exact ⟨exists_trim .standard ch text, trimmed_trim_standard ch text⟩
  · rintro ⟨⟨before, after, rfl⟩, hkept⟩
    exact (trim_standard_replicate before after hkept).symm

theorem trim_standard_eq_nil_iff : trim .standard ch text = [] ↔ ∀ c ∈ text, c = ch := by
  obtain ⟨front, back, hsplit, hfront, hback, hcore⟩ := exists_trim_standard ch text
  constructor
  · intro hnil
    rw [hnil, List.append_nil] at hsplit
    rw [hsplit]
    simpa [or_imp, forall_and] using And.intro hfront hback
  · intro hall
    by_contra hne
    obtain ⟨c, rest, hcons⟩ := List.exists_cons_of_ne_nil hne
    have hmem : c ∈ text := by
      rw [hsplit, hcons]
      simp
    rw [hcons, hall c hmem] at hcore
    exact hcore.1 rfl

theorem rdropWhile_dropWhile_eq_core (hfront : ∀ c ∈ front, c = ch) (hback : ∀ c ∈ back, c = ch)
    (hcore : Trimmed ch core) :
    ((front ++ core ++ back).dropWhile (· = ch)).rdropWhile (· = ch) = core := by
  have hrear : ∀ c ∈ back.reverse, decide (c = ch) = true := by simpa using hback
  rw [List.append_assoc, List.dropWhile_append_of_pos (by simpa using hfront)]
  cases core with
  | nil =>
      have hnothing : back.dropWhile (· = ch) = [] := by simpa using hback
      rw [List.nil_append, hnothing, List.rdropWhile_nil]
  | cons c core =>
      have hc : c ≠ ch := by simpa using hcore.1
      have hstop : (c :: (core ++ back)).dropWhile (· = ch) = c :: core ++ back := by
        simp [hc]
      rw [List.cons_append, hstop, List.rdropWhile, List.reverse_append,
        List.dropWhile_append_of_pos hrear]
      change (c :: core).rdropWhile (· = ch) = c :: core
      rw [List.rdropWhile_eq_self_iff]
      intro hne
      simpa [List.getLast?_eq_some_getLast hne] using hcore.2

theorem trim_standard_eq_rdropWhile :
    trim .standard ch text = (text.dropWhile (· = ch)).rdropWhile (· = ch) := by
  obtain ⟨front, core, back, rfl, hfront, hback, hcore⟩ := exists_core ch text
  rw [trim_standard_eq_core hfront hback hcore, rdropWhile_dropWhile_eq_core hfront hback hcore]

/-- The two offsets are places to cut the text, in order, and the part lies between them. -/
structure CutsOut (text : Text) (first last : Nat) (part : Text) : Prop where
  ordered : first ≤ last
  inside : last ≤ text.byteLength
  first_cut : (text.splitAt? first).isSome
  last_cut : (text.splitAt? last).isSome
  slice_eq : text.slice? first last = some part

theorem cutsOut_append :
    CutsOut (front ++ part ++ back) (byteLength front) (byteLength (front ++ part)) part where
  ordered := by simp
  inside := by simp
  first_cut := by
    rw [List.append_assoc, splitAt?_append]
    rfl
  last_cut := by
    rw [splitAt?_append]
    rfl
  slice_eq := slice?_append

theorem cutsOut_trim_standard (ch : Char) (text : Text) :
    (firstOther? ch text = none ∧ lastOther? ch text = none ∧ trim .standard ch text = []) ∨
      ∃ first last, firstOther? ch text = some first ∧ lastOther? ch text = some last ∧
        CutsOut text first last (trim .standard ch text) := by
  obtain ⟨front, back, hsplit, hfront, hback, hcore⟩ := exists_trim_standard ch text
  by_cases hnil : trim .standard ch text = []
  · have hall := trim_standard_eq_nil_iff.mp hnil
    exact .inl ⟨firstOther?_eq_none hall, lastOther?_eq_none hall, hnil⟩
  · right
    generalize trim .standard ch text = core at hsplit hcore hnil ⊢
    subst hsplit
    exact ⟨_, _, firstOther?_eq_core hfront hcore hnil, lastOther?_eq_core hback hcore hnil,
      cutsOut_append⟩

theorem cutsOut_trim_legacy (ch : Char) (text : Text) :
    CutsOut text ((firstOther? ch text).getD 0)
      ((lastOtherAfterFirst? ch text).getD text.byteLength) (trim .legacy ch text) := by
  by_cases htail : ∀ c ∈ text.tail, c = ch
  · rw [getD_firstOther?_eq_zero htail, lastOtherAfterFirst?_eq_none htail,
      trim_legacy_eq_self htail, Option.getD_none]
    have hwhole : CutsOut ([] ++ text ++ []) (byteLength []) (byteLength ([] ++ text)) text :=
      cutsOut_append
    simpa using hwhole
  · have hother : ∃ c ∈ text.tail, c ≠ ch := by simpa using htail
    obtain ⟨last, hlegacy, hstandard⟩ := lastOtherAfterFirst?_eq_lastOther? hother
    rw [trim_legacy_eq_standard hother, hlegacy]
    rcases cutsOut_trim_standard ch text with ⟨-, hnone, -⟩ | ⟨first, found, hfirst, hlast, hcuts⟩
    · rw [hstandard] at hnone
      cases hnone
    · rw [hstandard] at hlast
      cases hlast
      rw [hfirst]
      exact hcuts

theorem trim_eq_self (mode : TrimMode) (h : Trimmed ch text) : trim mode ch text = text := by
  cases mode with
  | standard => exact trim_standard_eq_self h
  | legacy =>
      by_cases htail : ∀ c ∈ text.tail, c = ch
      · exact trim_legacy_eq_self htail
      · rw [trim_legacy_eq_standard (by simpa using htail), trim_standard_eq_self h]

theorem trim_trim_standard (mode : TrimMode) (ch : Char) (text : Text) :
    trim mode ch (trim .standard ch text) = trim .standard ch text :=
  trim_eq_self mode (trimmed_trim_standard ch text)

theorem trim_legacy_trim_legacy (ch : Char) (text : Text) :
    trim .legacy ch (trim .legacy ch text) = trim .legacy ch text := by
  by_cases htail : ∀ c ∈ text.tail, c = ch
  · rw [trim_legacy_eq_self htail, trim_legacy_eq_self htail]
  · have hstandard : trim .legacy ch text = trim .standard ch text :=
      trim_legacy_eq_standard (by simpa using htail)
    rw [hstandard, trim_trim_standard]

theorem trim_trim (first second : TrimMode) (ch : Char) (text : Text) :
    trim second ch (trim first ch text) =
      trim (if .standard ∈ [first, second] then .standard else .legacy) ch text := by
  cases first with
  | standard => simpa using trim_trim_standard second ch text
  | legacy =>
      cases second with
      | standard => simpa using trim_standard_trim .legacy ch text
      | legacy => simpa using trim_legacy_trim_legacy ch text

theorem foldl_trim_eq (first : TrimMode) (others : List TrimMode) (ch : Char) (text : Text) :
    (first :: others).foldl (fun kept mode => trim mode ch kept) text =
      trim (if .standard ∈ first :: others then .standard else .legacy) ch text := by
  induction others generalizing first with
  | nil => cases first <;> rfl
  | cons second others ih =>
      -- The first two trims do what one of them does, so one trim less is left.
      rw [List.foldl_cons, List.foldl_cons, trim_trim, ← List.foldl_cons, ih]
      cases first <;> cases second <;> simp

end

/--
What is left of a text in each mode.  Neither mode fails to cut the text: the
offsets are in order and stand where characters begin and end.
-/
theorem trim_removes_outer_runs (ch : Char) (text : Text) :
    (∀ kept, kept = trim .standard ch text ↔
        (∃ before after, text = List.replicate before ch ++ kept ++ List.replicate after ch) ∧
          Trimmed ch kept) ∧
      (trim .standard ch text = [] ↔ ∀ c ∈ text, c = ch) ∧
      trim .standard ch text = (text.dropWhile (· = ch)).rdropWhile (· = ch) ∧
      trim .legacy ch text =
        (if text.tail.all (· = ch) then text else trim .standard ch text) ∧
      (firstOther? ch text = none ∧ lastOther? ch text = none ∧ trim .standard ch text = [] ∨
        ∃ first last, firstOther? ch text = some first ∧ lastOther? ch text = some last ∧
          CutsOut text first last (trim .standard ch text)) ∧
      CutsOut text ((firstOther? ch text).getD 0)
        ((lastOtherAfterFirst? ch text).getD text.byteLength) (trim .legacy ch text) := by
  refine ⟨fun kept => eq_trim_standard_iff, trim_standard_eq_nil_iff,
    trim_standard_eq_rdropWhile, ?_, cutsOut_trim_standard ch text, cutsOut_trim_legacy ch text⟩
  split
  · next htail => exact trim_legacy_eq_self (by simpa using htail)
  · next htail => exact trim_legacy_eq_standard (by simpa using htail)

example :
    trim .legacy ' ' ['→', ' ', ' '] = ['→', ' ', ' '] ∧
      trim .legacy ' ' [' ', '→', ' '] = ['→'] ∧ trim .standard ' ' ['→', ' ', ' '] = ['→'] := by
  decide

/--
Any number of trims, at least one, come to a single one: a standard trim where
there is one among them, and a legacy trim otherwise.
-/
theorem trims_compose (first : TrimMode) (others : List TrimMode) (ch : Char) (text : Text) :
    (first :: others).foldl (fun kept mode => trim mode ch kept) text =
        trim (if .standard ∈ first :: others then .standard else .legacy) ch text ∧
      (∀ mode, trim mode ch (trim mode ch text) = trim mode ch text) ∧
      (∀ mode other, trim other ch (trim mode ch text) = trim mode ch (trim other ch text)) ∧
      ∀ mode, trim .standard ch (trim mode ch text) = trim .standard ch text ∧
        trim mode ch (trim .standard ch text) = trim .standard ch text := by
  refine ⟨foldl_trim_eq first others ch text, ?_, ?_, ?_⟩
  · intro mode
    cases mode <;> exact trim_trim _ _ ch text
  · intro mode other
    rw [trim_trim, trim_trim]
    cases mode <;> cases other <;> rfl
  · intro mode
    exact ⟨trim_standard_trim mode ch text, trim_trim_standard mode ch text⟩

end Text

end TemplateLexer
