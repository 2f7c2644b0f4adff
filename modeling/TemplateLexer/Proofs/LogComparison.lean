import TemplateLexer.Proofs.LexerLog
import TemplateLexer.Proofs.Recovery

/-!
# Logs side by side

Recording changes no result.  All thresholds show parts of one log, in which
the recovery shows only by where strict lexing stops: its log is the beginning
of the others, and all of it when no tag follows the first broken one.
-/

namespace TemplateLexer

open Text

namespace Recorder

theorem isKept_debug_iff (entry : LogEntry) : isKept .debug entry ↔ entry.level ≠ .trace := by
  cases hlevel : entry.level <;> simp [isKept, hlevel, Level.rank]

theorem level_le_debug (entry : LogEntry) : entry.level.rank ≤ Level.debug.rank := by
  cases entry with
  | span opened => cases opened with | tokenize length => exact Nat.le_refl _
  | event emitted insideSpan =>
      cases emitted <;> simp [LogEntry.level, Event.level, Level.rank]

theorem isKept_of_debug_lt {threshold : Level} (h : Level.debug.rank < threshold.rank)
    (entry : LogEntry) : isKept threshold entry = false :=
  decide_eq_false (Nat.not_le_of_lt (Nat.lt_of_le_of_lt (level_le_debug entry) h))

end Recorder

namespace Lexer

variable {source : Text} {mode : TrimMode} {lexer other : Lexer} {pace : Pace}

theorem record_debug (pace : Pace) (lexer : Lexer) :
    (lexer.record .debug pace).2 =
      (lexer.record .trace pace).2.filter fun entry => entry.level ≠ .trace := by
  rw [record_trace, record_eq]
  apply List.filter_congr
  intro entry _
  rw [Bool.eq_iff_iff, Recorder.isKept_debug_iff, decide_eq_true_iff]

theorem record_of_debug_lt {threshold : Level} (h : Level.debug.rank < threshold.rank)
    (pace : Pace) (lexer : Lexer) : (lexer.record threshold pace).2 = [] := by
  rw [record_eq, List.filter_eq_nil_iff]
  intro entry _
  simp [Recorder.isKept_of_debug_lt h]

theorem log_legacy_eq_log_lossless (source : Text) (mode : TrimMode) (pace : Pace) :
    log pace ⟨source, ⟨.legacy, mode⟩⟩ = log pace ⟨source, ⟨.lossless, mode⟩⟩ := by
  have hevents : events ⟨source, ⟨.legacy, mode⟩⟩ = events ⟨source, ⟨.lossless, mode⟩⟩ := by
    rw [events_eq_flatMap, events_eq_flatMap]
    rfl
  have hcompletion :
      completion ⟨source, ⟨.legacy, mode⟩⟩ = completion ⟨source, ⟨.lossless, mode⟩⟩ := by
    simp [completion, tokenize_legacy, tokenize_lossless]
  cases pace with
  | stepwise => rw [log, log, hevents]
  | eager => rw [log, log, hevents, hcompletion]

theorem log_strict_isPrefix (source : Text) (mode : TrimMode) :
    log .stepwise ⟨source, ⟨.strict, mode⟩⟩ <+: log .stepwise ⟨source, ⟨.lossless, mode⟩⟩ := by
  rw [log, log, events_eq_flatMap, events_eq_flatMap]
  exact ((throughFirst_isPrefix _ (chunks source)).flatMap _).map _

end Lexer

section

variable {mode : TrimMode} {chunk : Chunk} {found : List Chunk} {source : Text}

theorem Chunk.event?_eq_none_iff : chunk.event? mode = none ↔ chunk.kind = .text := by
  obtain ⟨kind, start, text⟩ := chunk
  cases kind with
  | text => simp [event?]
  | tag kind => cases htoken : Token.ofText? mode text <;> simp [event?, htoken]
  | unterminated kind => simp [event?]

theorem events_eq_nil_iff :
    (found.flatMap fun chunk => (chunk.event? mode).toList) = [] ↔
      ∀ chunk ∈ found, chunk.kind = .text := by
  simp [List.flatMap_eq_nil_iff, Chunk.event?_eq_none_iff]

theorem forall_or_exists_first_lacksPayload (found : List Chunk) :
    (∀ chunk ∈ found, ¬ chunk.LacksPayload) ∨
      ∃ front bad back, found = front ++ bad :: back ∧
        (∀ chunk ∈ front, ¬ chunk.LacksPayload) ∧ bad.LacksPayload := by
  cases hfirst : found.find? fun chunk => chunk.LacksPayload with
  | none =>
      left
      simpa using hfirst
  | some bad =>
      obtain ⟨hbad, front, back, rfl, hfront⟩ := List.find?_eq_some_iff_append.mp hfirst
      right
      exact ⟨front, bad, back, rfl, by simpa using hfront, by simpa using hbad⟩

theorem flatMap_reach_strict_eq_iff {front back : List Chunk} {bad : Chunk}
    (hfront : ∀ chunk ∈ front, ¬ chunk.LacksPayload) (hbad : bad.LacksPayload) :
    ((Recovery.strict.reach (front ++ bad :: back)).flatMap fun chunk =>
        (chunk.event? mode).toList) =
      ((front ++ bad :: back).flatMap fun chunk => (chunk.event? mode).toList) ↔
      ∀ chunk ∈ back, chunk.kind = .text := by
  have hreach : Recovery.strict.reach (front ++ bad :: back) = front ++ [bad] :=
    throughFirst_append_cons (by simpa using hfront) (by simpa using hbad)
  have hsplit : front ++ bad :: back = (front ++ [bad]) ++ back :=
    List.append_cons front bad back
  rw [hreach, hsplit]
  generalize front ++ [bad] = reached
  rw [List.flatMap_append, List.self_eq_append_right, events_eq_nil_iff]

theorem events_strict_eq_iff :
    Lexer.events ⟨source, ⟨.strict, mode⟩⟩ = Lexer.events ⟨source, ⟨.lossless, mode⟩⟩ ↔
      (∀ chunk ∈ chunks source, ¬ chunk.LacksPayload) ∨
        ∃ front bad back, chunks source = front ++ bad :: back ∧
          (∀ chunk ∈ front, ¬ chunk.LacksPayload) ∧ bad.LacksPayload ∧
          ∀ chunk ∈ back, chunk.kind = .text := by
  rw [Lexer.events_eq_flatMap, Lexer.events_eq_flatMap]
  constructor
  · intro h
    rcases forall_or_exists_first_lacksPayload (chunks source) with
      hall | ⟨front, bad, back, hsplit, hfront, hbad⟩
    · exact .inl hall
    · rw [hsplit] at h
      exact .inr ⟨front, bad, back, hsplit, hfront, hbad,
        (flatMap_reach_strict_eq_iff hfront hbad).mp h⟩
  · rintro (hall | ⟨front, bad, back, hsplit, hfront, hbad, hback⟩)
    · have hreach : Recovery.strict.reach (chunks source) = chunks source :=
        throughFirst_eq_self (by simpa using hall)
      rw [hreach]
      rfl
    · rw [hsplit]
      exact (flatMap_reach_strict_eq_iff hfront hbad).mpr hback

end

/--
Recording has no effect on the result, whatever is recorded and however the
tokens are asked for.  A higher threshold shows less of the same log, in which
only strict lexing shows: it stops at the first tag without a payload, and
nothing is missing from its log when only literal text follows.
-/
theorem recording_is_pure_and_logs_agree (source : Text) (mode : TrimMode) :
    let lexer (recovery : Recovery) : Lexer := ⟨source, ⟨recovery, mode⟩⟩
    (∀ recovery threshold pace,
        ((lexer recovery).record threshold pace).1 = (lexer recovery).tokenize) ∧
      (∀ recovery pace,
        ((lexer recovery).record .debug pace).2 =
            ((lexer recovery).record .trace pace).2.filter (fun entry => entry.level ≠ .trace) ∧
          ((lexer recovery).record .info pace).2 = []) ∧
      (∀ threshold pace,
        ((lexer .legacy).record threshold pace).2 =
          ((lexer .lossless).record threshold pace).2) ∧
      (∀ threshold,
        ((lexer .strict).record threshold .stepwise).2 <+:
          ((lexer .lossless).record threshold .stepwise).2) ∧
      (((lexer .strict).record .trace .stepwise).2 =
          ((lexer .lossless).record .trace .stepwise).2 ↔
        (∀ chunk ∈ chunks source, ¬ chunk.LacksPayload) ∨
          ∃ front bad back, chunks source = front ++ bad :: back ∧
            (∀ chunk ∈ front, ¬ chunk.LacksPayload) ∧ bad.LacksPayload ∧
            ∀ chunk ∈ back, chunk.kind = .text) := by
  intro lexer
  refine ⟨?_, ?_, ?_, ?_, ?_⟩
  · intro recovery threshold pace
    rw [Lexer.record_eq]
  · intro recovery pace
    exact ⟨Lexer.record_debug pace (lexer recovery),
      Lexer.record_of_debug_lt (by decide) pace (lexer recovery)⟩
  · intro threshold pace
    rw [Lexer.record_eq, Lexer.record_eq]
    rw [Lexer.log_legacy_eq_log_lossless source mode pace]
  · intro threshold
    rw [Lexer.record_eq, Lexer.record_eq]
    exact (Lexer.log_strict_isPrefix source mode).filter _
  · have hinj : ∀ first second : Event,
        LogEntry.event first false = LogEntry.event second false → first = second := by
      intro first second h
      exact (LogEntry.event.inj h).1
    rw [Lexer.record_trace, Lexer.record_trace, Lexer.log, Lexer.log, List.map_inj_right hinj]
    exact events_strict_eq_iff

end TemplateLexer
