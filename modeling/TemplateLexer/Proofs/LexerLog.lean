import TemplateLexer.Proofs.ChunkForm
import TemplateLexer.Proofs.Recorder

/-!
# The log of a lexing

Every chunk but literal text is reported by one event, until a chunk makes an
error.  Lexing all at once puts the same events into its span and reports the
number of tokens when there was no error.  A threshold takes its part of this
one log, whose lines can be told from the chunks alone.
-/

namespace TemplateLexer

open Text

section

variable {α : Type} {p q : α → Bool} {items front back : List α} {item : α}

def throughFirst (p : α → Bool) : List α → List α
  | [] => []
  | item :: rest => if p item then [item] else item :: throughFirst p rest

theorem throughFirst_congr (h : ∀ item ∈ items, p item = q item) :
    throughFirst p items = throughFirst q items := by
  induction items with
  | nil => rfl
  | cons item items ih =>
      obtain ⟨hitem, hitems⟩ := List.forall_mem_cons.mp h
      rw [throughFirst, throughFirst, hitem, ih hitems]

theorem throughFirst_eq_self (h : ∀ item ∈ items, p item = false) :
    throughFirst p items = items := by
  induction items with
  | nil => rfl
  | cons item items ih =>
      obtain ⟨hitem, hitems⟩ := List.forall_mem_cons.mp h
      rw [throughFirst, hitem, ih hitems]
      rfl

theorem throughFirst_isPrefix (p : α → Bool) (items : List α) : throughFirst p items <+: items := by
  induction items with
  | nil => exact List.prefix_refl []
  | cons item items ih =>
      rw [throughFirst]
      split
      · exact List.prefix_append [item] items
      · exact (List.prefix_cons_inj item).mpr ih

theorem throughFirst_append_cons (hfront : ∀ first ∈ front, p first = false)
    (hitem : p item = true) : throughFirst p (front ++ item :: back) = front ++ [item] := by
  induction front with
  | nil => rw [List.nil_append, throughFirst, if_pos hitem, List.nil_append]
  | cons first front ih =>
      obtain ⟨hfirst, hfront⟩ := List.forall_mem_cons.mp hfront
      rw [List.cons_append, throughFirst, hfirst, ih hfront]
      rfl

end

def Chunk.event? (mode : TrimMode) (chunk : Chunk) : Option Event :=
  match chunk.kind with
  | .text => none
  | .tag _ =>
      match Token.ofText? mode chunk.text with
      | some token => some (.lexedTag token chunk.start)
      | none => some (.malformedTag chunk.text chunk.start)
  | .unterminated kind => some (.unterminatedTag kind.opener chunk.start)

def Chunk.fails (options : Options) (chunk : Chunk) : Bool :=
  !(chunk.item options).isOk

def eventsOf (options : Options) (found : List Chunk) : List Event :=
  (throughFirst (Chunk.fails options) found).flatMap fun chunk =>
    (chunk.event? options.trim).toList

namespace Lexer

def events (lexer : Lexer) : List Event :=
  eventsOf lexer.options (chunks lexer.source)

def completion (lexer : Lexer) : List Event :=
  match lexer.tokenize with
  | .ok tokens => [.lexedTemplate tokens.length]
  | .error _ => []

/-- Everything there is to record. -/
def log (pace : Pace) (lexer : Lexer) : List LogEntry :=
  match pace with
  | .stepwise => lexer.events.map fun event => .event event false
  | .eager =>
      .span (.tokenize lexer.source.byteLength) ::
        (lexer.events ++ lexer.completion).map fun event => .event event true

end Lexer

section

variable {options : Options} {chunk : Chunk} {found : List Chunk}

theorem eventsOf_cons_of_error {error : LexError} (h : chunk.item options = .error error) :
    eventsOf options (chunk :: found) = (chunk.event? options.trim).toList := by
  simp [eventsOf, throughFirst, Chunk.fails, h, Except.isOk, Except.toBool]

theorem eventsOf_cons_of_ok {token : Token} (h : chunk.item options = .ok token) :
    eventsOf options (chunk :: found) =
      (chunk.event? options.trim).toList ++ eventsOf options found := by
  simp [eventsOf, throughFirst, Chunk.fails, h, Except.isOk, Except.toBool]

theorem Chunk.reports_toToken (options : Options) (chunk : Chunk) :
    Recorder.Reports (chunk.toToken options) (chunk.item options)
      (chunk.event? options.trim).toList := by
  obtain ⟨kind, start, text⟩ := chunk
  cases kind with
  | text => exact Recorder.reports_pure _
  | unterminated kind => exact (Recorder.reports_emit _).bind (Recorder.reports_pure _)
  | tag kind =>
      rw [item_tag]
      unfold toToken event?
      cases Token.ofText? options.trim text with
      | some token => exact (Recorder.reports_emit _).bind (Recorder.reports_pure _)
      | none => exact (Recorder.reports_emit _).bind (Recorder.reports_pure _)

theorem TokenStream.reports_collect (chunks : Chunker) (options : Options) :
    Recorder.Reports (collect ⟨chunks, options, false⟩)
      ((FiniteStream.toList chunks).mapM (Chunk.item options))
      (eventsOf options (FiniteStream.toList chunks)) := by
  induction chunks using FiniteStream.toList.induct with
  | case1 chunks hend =>
      rw [collect_of_next?_eq_none hend,
        FiniteStream.toList_of_next?_eq_none hend]
      exact Recorder.reports_pure _
  | case2 chunks chunk rest hnext ih =>
      rw [collect_of_next?_eq_some hnext,
        FiniteStream.toList_of_next?_eq_some hnext, List.mapM_cons]
      have hchunk := chunk.reports_toToken options
      cases hitem : chunk.item options with
      | error error =>
          rw [hitem] at hchunk
          rw [eventsOf_cons_of_error hitem, ← List.append_nil (Option.toList _)]
          exact hchunk.bind (Recorder.reports_pure _)
      | ok token =>
          rw [hitem] at hchunk
          rw [eventsOf_cons_of_ok hitem, ← List.append_nil (eventsOf _ _)]
          refine hchunk.bind ?_
          generalize (FiniteStream.toList rest).mapM (Chunk.item options) = result at ih ⊢
          cases result with
          | error error => exact ih.bind (Recorder.reports_pure _)
          | ok tokens => exact ih.bind (Recorder.reports_pure _)

end

theorem Lexer.record_eq (threshold : Level) (pace : Pace) (lexer : Lexer) :
    lexer.record threshold pace =
      (lexer.tokenize, (lexer.log pace).filter (Recorder.isKept threshold)) := by
  have hcollect : Recorder.Reports lexer.tokens.collect lexer.tokenize lexer.events := by
    rw [tokenize_eq_mapM]
    exact TokenStream.reports_collect _ _
  cases pace with
  | stepwise => exact Recorder.record_of_reports threshold hcollect
  | eager =>
      apply Recorder.record_within_of_reports threshold
      refine hcollect.bind ?_
      rw [completion]
      cases lexer.tokenize with
      | error error => exact Recorder.reports_pure _
      | ok tokens => exact (Recorder.reports_emit _).bind (Recorder.reports_pure _)

theorem Lexer.record_trace (pace : Pace) (lexer : Lexer) :
    (lexer.record .trace pace).2 = lexer.log pace := by
  rw [record_eq, List.filter_eq_self]
  intro entry _
  simp [Recorder.isKept, Level.rank]

/-! ## What is reported, told from the chunks -/

/-- A tag that is never closed, or has fewer than four characters. -/
def Chunk.LacksPayload (chunk : Chunk) : Prop :=
  match chunk.kind with
  | .text => False
  | .tag _ => chunk.text.length < 4
  | .unterminated _ => True

instance (chunk : Chunk) : Decidable chunk.LacksPayload :=
  match chunk with
  | ⟨.text, _, _⟩ => inferInstanceAs (Decidable False)
  | ⟨.tag _, _, text⟩ => inferInstanceAs (Decidable (text.length < 4))
  | ⟨.unterminated _, _, _⟩ => inferInstanceAs (Decidable True)

/-- The chunks that lexing asks for: strictly, none behind the first without a payload. -/
def Recovery.reach (recovery : Recovery) (found : List Chunk) : List Chunk :=
  match recovery with
  | .strict => throughFirst (fun chunk => chunk.LacksPayload) found
  | .legacy | .lossless => found

/-- The line of the log that a chunk accounts for. -/
def Chunk.line? (mode : TrimMode) (insideSpan : Bool) (chunk : Chunk) : Option LogLine :=
  match chunk.kind with
  | .text => none
  | .tag _ =>
      if 4 ≤ chunk.text.length then
        some (.event "cooked tag".toList .trace
          [("token".toList, .text (chunk.token mode).display),
            ("offset".toList, .number chunk.start)] insideSpan)
      else
        some (.event "malformed tag".toList .debug
          [("chunk".toList, .text chunk.text), ("offset".toList, .number chunk.start)]
          insideSpan)
  | .unterminated kind =>
      some (.event "unterminated tag".toList .debug
        [("open".toList, .text kind.opener), ("offset".toList, .number chunk.start)]
        insideSpan)

section

variable {mode : TrimMode} {chunk : Chunk} {options : Options} {source : Text}

theorem Chunk.lacksPayload_iff_isBroken (hform : chunk.kind.Form chunk.text) :
    chunk.LacksPayload ↔ chunk.IsBroken := by
  cases hform using Chunk.form_cases with
  | text hne hpart => exact Iff.rfl
  | unterminated hopener hpart => exact Iff.rfl
  | delimited hinner =>
      rw [iff_false_right not_isBroken_delimited]
      simp [LacksPayload]
      omega
  | overlapped hkind => simp [isBroken_overlapped hkind, LacksPayload]

theorem Chunk.fails_strict (hform : chunk.kind.Form chunk.text) :
    chunk.fails ⟨.strict, mode⟩ = decide chunk.LacksPayload := by
  have hiff : chunk.LacksPayload ↔ (chunk.token mode).recovered?.isSome :=
    (lacksPayload_iff_isBroken hform).trans (isBroken_iff_recovered? hform)
  rw [fails, item_strict hform mode]
  cases hrecovered : (chunk.token mode).recovered? with
  | none => simp [hiff, hrecovered, Except.isOk, Except.toBool]
  | some kind => simp [hiff, hrecovered, Except.isOk, Except.toBool]

theorem Chunk.fails_of_ne_strict (chunk : Chunk) (h : options.recovery ≠ .strict) :
    chunk.fails options = false := by
  obtain ⟨kind, start, text⟩ := chunk
  obtain ⟨recovery, mode⟩ := options
  cases kind with
  | text => rfl
  | tag kind =>
      rw [fails, item_tag]
      cases recovery <;> cases Token.ofText? mode text <;> first | rfl | exact absurd rfl h
  | unterminated kind =>
      rw [fails, item_unterminated]
      cases recovery <;> first | rfl | exact absurd rfl h

theorem throughFirst_fails (source : Text) (options : Options) :
    throughFirst (Chunk.fails options) (chunks source) =
      options.recovery.reach (chunks source) := by
  obtain ⟨recovery, mode⟩ := options
  cases recovery with
  | strict =>
      apply throughFirst_congr
      intro chunk hmem
      exact Chunk.fails_strict (form_of_mem hmem)
  | legacy => exact throughFirst_eq_self fun chunk _ => chunk.fails_of_ne_strict (by simp)
  | lossless => exact throughFirst_eq_self fun chunk _ => chunk.fails_of_ne_strict (by simp)

theorem Recovery.mem_of_mem_reach {recovery : Recovery} {found : List Chunk}
    (h : chunk ∈ recovery.reach found) : chunk ∈ found := by
  cases recovery with
  | strict => exact (throughFirst_isPrefix _ found).subset h
  | legacy => exact h
  | lossless => exact h

theorem Chunk.line?_eq_map_event? (hform : chunk.kind.Form chunk.text) (insideSpan : Bool) :
    chunk.line? mode insideSpan =
      (chunk.event? mode).map fun event => (LogEntry.event event insideSpan).line := by
  cases hform using Chunk.form_cases with
  | text hne hpart => rfl
  | unterminated hopener hpart => rfl
  | @delimited kind _ inner hinner =>
      have hlength : 4 ≤ (kind.opener ++ inner ++ kind.closer).length := by
        simp
        omega
      simp only [line?, event?, if_pos hlength, token_delimited, Token.ofText?_delimited]
      rfl
  | @overlapped kind _ hkind =>
      have hlength : ¬ 4 ≤ ('{' :: kind.closer).length := by simp
      simp only [line?, event?, if_neg hlength, Token.ofText?_overlapped hkind]
      rfl

theorem Lexer.events_eq_flatMap (source : Text) (options : Options) :
    Lexer.events ⟨source, options⟩ =
      (options.recovery.reach (chunks source)).flatMap fun chunk =>
        (chunk.event? options.trim).toList := by
  rw [events, eventsOf, throughFirst_fails]

theorem map_line_events (source : Text) (options : Options) (insideSpan : Bool) :
    ((Lexer.events ⟨source, options⟩).map fun event => (LogEntry.event event insideSpan).line) =
      (options.recovery.reach (chunks source)).filterMap
        (Chunk.line? options.trim insideSpan) := by
  rw [Lexer.events_eq_flatMap, ← List.filterMap_eq_flatMap_toList, List.map_filterMap]
  apply List.filterMap_congr
  intro chunk hmem
  exact (Chunk.line?_eq_map_event? (form_of_mem (Recovery.mem_of_mem_reach hmem)) insideSpan).symm

theorem Chunk.item_of_length (hform : chunk.kind.Form chunk.text) {kind : TagKind}
    (hkind : chunk.kind = .tag kind) (hlength : 4 ≤ chunk.text.length) :
    chunk.item options = .ok (chunk.token options.trim) := by
  cases hform using Chunk.form_cases with
  | text hne hpart => cases hkind
  | unterminated hopener hpart => cases hkind
  | delimited hinner => rw [item_delimited, token_delimited]
  | overlapped => simp at hlength

theorem length_eq_of_tokenize_eq_ok {tokens : List Token}
    (h : Lexer.tokenize ⟨source, options⟩ = .ok tokens) :
    tokens.length = (chunks source).length := by
  rw [Lexer.tokenize_eq_mapM, mapM_eq_ok_iff_forall₂] at h
  exact h.length_eq.symm

end

/--
At the lowest threshold the log has one line for each chunk that lexing asks
for, literal text apart, in order.  Lexing all at once puts them into a span,
and behind them the number of tokens, one for each chunk, when it succeeds.
-/
theorem log_lines_of_chunks (source : Text) (options : Options) :
    let lexer : Lexer := ⟨source, options⟩
    let reached := options.recovery.reach (chunks source)
    (lexer.record .trace .stepwise).2.map LogEntry.line =
        reached.filterMap (Chunk.line? options.trim false) ∧
      (lexer.record .trace .eager).2.map LogEntry.line =
        .span "tokenize".toList .debug [("len".toList, .number source.byteLength)] ::
          reached.filterMap (Chunk.line? options.trim true) ++
          (match lexer.tokenize with
            | .ok _ =>
                [.event "tokenized template".toList .debug
                  [("count".toList, .number (chunks source).length)] true]
            | .error _ => []) ∧
      ∀ chunk ∈ reached, ∀ kind, chunk.kind = .tag kind → 4 ≤ chunk.text.length →
        chunk.item options = .ok (chunk.token options.trim) := by
  intro lexer reached
  refine ⟨?_, ?_, ?_⟩
  · rw [Lexer.record_trace, Lexer.log, List.map_map]
    exact map_line_events source options false
  · rw [Lexer.record_trace, Lexer.log, List.map_cons, List.map_map, List.map_append,
      List.cons_append]
    congr 2
    · exact map_line_events source options true
    · rw [Lexer.completion]
      cases htokens : lexer.tokenize with
      | error error => rfl
      | ok tokens =>
          rw [← length_eq_of_tokenize_eq_ok htokens]
          rfl
  · intro chunk hmem kind hkind hlength
    exact Chunk.item_of_length (form_of_mem (Recovery.mem_of_mem_reach hmem)) hkind hlength

example :
    Lexer.record .trace .eager ⟨"{{ x }}{%}{{ y }}".toList, ⟨.strict, .standard⟩⟩ =
      (.error ⟨.malformedTag "{%}".toList, 7⟩,
        [.span (.tokenize 17), .event (.lexedTag (.tag .var ['x']) 0) true,
          .event (.malformedTag "{%}".toList 7) true]) := by
  decide +kernel

end TemplateLexer
