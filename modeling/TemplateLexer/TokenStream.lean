import TemplateLexer.Chunk
import TemplateLexer.LexError
import TemplateLexer.Log
import TemplateLexer.Options

/-!
# Token streams

Each chunk becomes one token or one error.  Literal text is kept as it is, a
tag becomes a token by `Token.ofText?`, and for a tag that is unterminated or
too short the recovery decides.  A token stream takes the chunks one at a time
and ends after the first error.  Each of its steps makes one item and reports
it, and all the ways to take tokens from it are made of such steps.
-/

namespace TemplateLexer

def Recovery.ofMalformed (recovery : Recovery) (kind : TagKind) (chunk : Chunk) :
    Except LexError Token :=
  match recovery with
  | .strict => .error (LexError.malformed chunk.text chunk.start)
  | .legacy => .ok (.tag kind [])
  | .lossless => .ok (.text chunk.text)

def Recovery.ofUnterminated (recovery : Recovery) (kind : TagKind) (chunk : Chunk) :
    Except LexError Token :=
  match recovery with
  | .strict => .error (LexError.unterminated kind chunk.start)
  | .legacy => .ok (.text [])
  | .lossless => .ok (.text chunk.text)

section

variable {m : Type → Type} [Monad m] [EventSink m]

def Chunk.toToken (options : Options) (chunk : Chunk) : m (Except LexError Token) :=
  match chunk.kind with
  | .text => return .ok (.text chunk.text)
  | .tag kind =>
      match Token.ofText? options.trim chunk.text with
      | some token => do
          EventSink.emit (.lexedTag token chunk.start)
          return .ok token
      | none => do
          EventSink.emit (.malformedTag chunk.text chunk.start)
          return options.recovery.ofMalformed kind chunk
  | .unterminated kind => do
      EventSink.emit (.unterminatedTag kind.opener chunk.start)
      return options.recovery.ofUnterminated kind chunk

end

/-- The tokens that lie ahead, none once an error has been yielded. -/
structure TokenStream where
  chunks : Chunker
  options : Options
  failed : Bool
  deriving DecidableEq, Repr

namespace TokenStream

def size (stream : TokenStream) : Nat :=
  stream.chunks.size

structure Yield (stream : TokenStream) where
  item : Except LexError Token
  rest : TokenStream
  size_lt : rest.size < stream.size

section

variable {m : Type → Type} [Monad m] [EventSink m]

def step? (stream : TokenStream) : m (Option stream.Yield) :=
  if stream.failed then return none
  else
    match h : stream.chunks.next? with
    | none => return none
    | some (chunk, chunks) => do
        let item ← chunk.toToken stream.options
        return some
          ⟨item, { stream with chunks, failed := !item.isOk }, Chunker.size_lt_of_next? h⟩

def collect (stream : TokenStream) : m (Except LexError (List Token)) := do
  match ← stream.step? with
  | none => return .ok []
  | some ⟨.error error, _, _⟩ => return .error error
  | some ⟨.ok token, rest, _⟩ => return (← rest.collect).map (token :: ·)
termination_by stream.size

variable {chunks rest : Chunker} {chunk : Chunk} {options : Options}

theorem step?_of_next?_eq_none (h : chunks.next? = none) :
    (⟨chunks, options, false⟩ : TokenStream).step? = (return none : m (Option (Yield _))) := by
  rw [step?, if_neg (by simp)]
  split
  · rfl
  · next heq => rw [h] at heq; cases heq

theorem step?_of_next?_eq_some (h : chunks.next? = some (chunk, rest)) :
    (⟨chunks, options, false⟩ : TokenStream).step? = (do
      let item ← chunk.toToken options
      return some ⟨item, ⟨rest, options, !item.isOk⟩, Chunker.size_lt_of_next? h⟩ :
        m (Option (Yield _))) := by
  rw [step?, if_neg (by simp)]
  split
  · next heq => rw [h] at heq; cases heq
  · next heq =>
      have hpair := heq.symm.trans h
      cases hpair
      rfl

variable [LawfulMonad m]

theorem collect_of_next?_eq_none (h : chunks.next? = none) :
    (⟨chunks, options, false⟩ : TokenStream).collect =
      (return .ok [] : m (Except LexError (List Token))) := by
  rw [collect, step?_of_next?_eq_none h, pure_bind]

theorem collect_of_next?_eq_some (h : chunks.next? = some (chunk, rest)) :
    (⟨chunks, options, false⟩ : TokenStream).collect = (do
      match ← chunk.toToken options with
      | .error error => return .error error
      | .ok token => return (← collect ⟨rest, options, false⟩).map (token :: ·) :
        m (Except LexError (List Token))) := by
  rw [collect, step?_of_next?_eq_some h, bind_assoc]
  refine bind_congr fun item => ?_
  rw [pure_bind]
  cases item <;> rfl

end

def next? (stream : TokenStream) : Option (Except LexError Token × TokenStream) :=
  (Id.run stream.step?).map fun yielded => (yielded.item, yielded.rest)

instance : FiniteStream TokenStream (Except LexError Token) where
  next? := next?
  size := size
  size_lt h := by
    obtain ⟨⟨item, rest, hsize⟩, -, heq⟩ := Option.map_eq_some_iff.mp h
    cases heq
    exact hsize

end TokenStream

end TemplateLexer
