import Mathlib.Data.List.Induction

/-!
# Support — Reader

Processes that read a byte stream while it is delivered.

A reader is the tree of its reads: `readExact n` waits until `n` bytes are there, and `readChunk`
until there is one, of which it returns all that were delivered together; both also return once the
stream is finished.  The stream is the chunks that were delivered and not read yet.

* `feed`: the reader is run again after every chunk that is delivered; `finish`: and once more at
  the end of the stream.
* `feed_eq`, `finish_feed`: how often it was run in between does not matter.
-/

/-- A reader of a byte stream, as the tree of its reads. -/
inductive Reader (ε α : Type) where
  | done (a : α)
  | fail (e : ε)
  | bytes (n : Nat) (next : List UInt8 → Reader ε α)
  | chunk (next : Option (List UInt8) → Reader ε α)

namespace Reader

variable {ε α β : Type}

/-- Sequencing. -/
def bind : Reader ε α → (α → Reader ε β) → Reader ε β
  | .done a, f => f a
  | .fail e, _ => .fail e
  | .bytes n next, f => .bytes n fun bytes => bind (next bytes) f
  | .chunk next, f => .chunk fun chunk => bind (next chunk) f

instance : Monad (Reader ε) where
  pure := .done
  bind := bind

/-- `read_exact` -/
def readExact (n : Nat) : Reader ε (List UInt8) := .bytes n .done

/-- `read_chunk`, ordered and without a limit. -/
def readChunk : Reader ε (Option (List UInt8)) := .chunk .done

/-- A computation without input. -/
protected def ofExcept : Except ε α → Reader ε α
  | .ok a => .done a
  | .error e => .fail e

theorem bind_done (reader : Reader ε α) : reader.bind .done = reader := by
  induction reader with
  | done a => rfl
  | fail e => rfl
  | bytes n next ih => exact congrArg (Reader.bytes n) (funext ih)
  | chunk next ih => exact congrArg Reader.chunk (funext ih)

theorem bind_bind {γ : Type} (reader : Reader ε α) (f : α → Reader ε β) (g : β → Reader ε γ) :
    (reader.bind f).bind g = reader.bind fun a => (f a).bind g := by
  induction reader with
  | done a => rfl
  | fail e => rfl
  | bytes n next ih => exact congrArg (Reader.bytes n) (funext ih)
  | chunk next ih => exact congrArg Reader.chunk (funext ih)

instance : LawfulMonad (Reader ε) :=
  .mk' (Reader ε) bind_done (fun _ _ => rfl) bind_bind

@[simp] theorem done_bind (a : α) (f : α → Reader ε β) : (.done a : Reader ε α) >>= f = f a := rfl
@[simp] theorem fail_bind (e : ε) (f : α → Reader ε β) : (.fail e : Reader ε α) >>= f = .fail e :=
  rfl
@[simp] theorem readExact_bind (n : Nat) (f : List UInt8 → Reader ε β) :
    readExact n >>= f = .bytes n f := rfl
@[simp] theorem bytes_bind (n : Nat) (next : List UInt8 → Reader ε α) (f : α → Reader ε β) :
    .bytes n next >>= f = .bytes n fun bytes => next bytes >>= f := rfl
@[simp] theorem readChunk_bind (f : Option (List UInt8) → Reader ε β) :
    readChunk >>= f = .chunk f := rfl
@[simp] theorem ofExcept_ok (a : α) : Reader.ofExcept (.ok a : Except ε α) = .done a := rfl
@[simp] theorem ofExcept_error (e : ε) : Reader.ofExcept (.error e : Except ε α) = .fail e := rfl

/-! ### The chunks -/

/-- The chunks without the first `n` bytes. -/
def dropBytes : Nat → List (List UInt8) → List (List UInt8)
  | 0, chunks => chunks
  | _ + 1, [] => []
  | n + 1, c :: chunks =>
    if n + 1 < c.length then c.drop (n + 1) :: chunks else dropBytes (n + 1 - c.length) chunks

theorem flatten_dropBytes (n : Nat) (chunks : List (List UInt8)) :
    (dropBytes n chunks).flatten = chunks.flatten.drop n := by
  induction chunks generalizing n with
  | nil => cases n <;> rfl
  | cons c chunks ih =>
      cases n with
      | zero => rfl
      | succ n =>
          rw [dropBytes]
          split_ifs with hlt
          · rw [List.flatten_cons, List.flatten_cons,
              List.drop_append_of_le_length (Nat.le_of_lt hlt)]
          · rw [ih, List.flatten_cons, List.drop_append,
              List.drop_eq_nil_of_le (Nat.le_of_not_lt hlt), List.nil_append]

/-- Chunks behind those read from stay as they are. -/
theorem dropBytes_append (more : List (List UInt8)) : ∀ (n : Nat) (chunks : List (List UInt8)),
    n ≤ chunks.flatten.length → dropBytes n (chunks ++ more) = dropBytes n chunks ++ more := by
  intro n chunks
  induction chunks generalizing n with
  | nil =>
      intro h
      obtain rfl : n = 0 := Nat.le_zero.mp h
      rw [dropBytes, dropBytes]
  | cons c chunks ih =>
      intro h
      cases n with
      | zero => rw [dropBytes, dropBytes]
      | succ n =>
          rw [List.flatten_cons, List.length_append] at h
          rw [List.cons_append, dropBytes, dropBytes]
          split_ifs with hlt
          · rw [List.cons_append]
          · exact ih _ (by omega)

/-- Without the empty chunks in front there is nothing, or a byte in front. -/
theorem dropWhile_isEmpty (chunks : List (List UInt8)) :
    (chunks.dropWhile List.isEmpty).flatten = chunks.flatten := by
  induction chunks with
  | nil => rfl
  | cons c chunks ih =>
      cases c with
      | nil => rwa [List.dropWhile_cons_of_pos rfl, List.flatten_cons, List.nil_append]
      | cons b c => rw [List.dropWhile_cons_of_neg (by simp)]

theorem dropWhile_isEmpty_eq_nil_iff (chunks : List (List UInt8)) :
    chunks.dropWhile List.isEmpty = [] ↔ chunks.flatten = [] := by
  induction chunks with
  | nil => simp
  | cons c chunks ih =>
      cases c with
      | nil => rwa [List.dropWhile_cons_of_pos rfl, List.flatten_cons, List.nil_append]
      | cons b c => simp

/-! ### Runs -/

/-- What a reader has come to: its value, with the chunks behind what it read; an error; an end of
the stream within a `read_exact`; or a read that waits, with the chunks there are. -/
inductive Result (ε α : Type) where
  | done (a : α) (rest : List (List UInt8))
  | failed (e : ε)
  | finishedEarly (read : Nat)
  | waiting (reader : Reader ε α) (chunks : List (List UInt8))

/-- **As far as it gets** with the chunks there are. -/
def run (finished : Bool) : Reader ε α → List (List UInt8) → Result ε α
  | .done a, chunks => .done a chunks
  | .fail e, _ => .failed e
  | .bytes n next, chunks =>
    if n ≤ chunks.flatten.length then
      run finished (next (chunks.flatten.take n)) (dropBytes n chunks)
    else if finished then .finishedEarly chunks.flatten.length
    else .waiting (.bytes n next) chunks
  | .chunk next, chunks =>
    match chunks.dropWhile List.isEmpty with
    | c :: rest => run finished (next (some c)) rest
    | [] => if finished then run finished (next none) [] else .waiting (.chunk next) []

/-- One more chunk is delivered. -/
def Result.deliver (chunk : List UInt8) : Result ε α → Result ε α
  | .done a rest => .done a (rest ++ [chunk])
  | .failed e => .failed e
  | .finishedEarly read => .finishedEarly read
  | .waiting reader chunks => reader.run false (chunks ++ [chunk])

/-- The end of the stream. -/
def Result.finish : Result ε α → Result ε α
  | .waiting reader chunks => reader.run true chunks
  | result => result

/-- **The reader while the stream is delivered**, run again after every chunk. -/
def feed (reader : Reader ε α) (chunks : List (List UInt8)) : Result ε α :=
  chunks.foldl (fun result chunk => result.deliver chunk) (reader.run false [])

/-- **A run goes on where it stopped.** -/
theorem deliver_run (chunk : List UInt8) (reader : Reader ε α) (chunks : List (List UInt8)) :
    (reader.run false chunks).deliver chunk = reader.run false (chunks ++ [chunk]) := by
  induction reader generalizing chunks with
  | done a => rfl
  | fail e => rfl
  | bytes n next ih =>
      by_cases hn : n ≤ chunks.flatten.length
      · have hn' : n ≤ (chunks ++ [chunk]).flatten.length := by
          rw [List.flatten_append, List.length_append]
          exact Nat.le_add_right_of_le hn
        rw [run, if_pos hn, run, if_pos hn', ih, dropBytes_append _ n chunks hn,
          List.flatten_append, List.take_append_of_le_length hn]
      · rw [run, if_neg hn]
        rfl
  | chunk next ih =>
      rw [run]
      cases hfront : chunks.dropWhile List.isEmpty with
      | nil =>
          have hskip : (chunks ++ [chunk]).dropWhile List.isEmpty =
              [chunk].dropWhile List.isEmpty := by
            rw [List.dropWhile_append, hfront]
            rfl
          simp only [Bool.false_eq_true, if_false, Result.deliver, List.nil_append]
          rw [run, run, hskip]
      | cons c rest =>
          have hskip : (chunks ++ [chunk]).dropWhile List.isEmpty = c :: (rest ++ [chunk]) := by
            rw [List.dropWhile_append, hfront]
            rfl
          simp only
          rw [ih, run, hskip]

/-- **The chunks one by one** are the chunks at once. -/
theorem feed_eq (reader : Reader ε α) (chunks : List (List UInt8)) :
    reader.feed chunks = reader.run false chunks := by
  induction chunks using List.reverseRecOn with
  | nil => rfl
  | append_singleton chunks chunk ih =>
      rw [feed] at ih ⊢
      rw [List.foldl_append, ih, List.foldl_cons, List.foldl_nil, deliver_run]

/-- The end of the stream after a run is the end of the stream before it. -/
theorem finish_run (reader : Reader ε α) (chunks : List (List UInt8)) :
    (reader.run false chunks).finish = reader.run true chunks := by
  induction reader generalizing chunks with
  | done a => rfl
  | fail e => rfl
  | bytes n next ih =>
      by_cases hn : n ≤ chunks.flatten.length
      · rw [run, if_pos hn, run, if_pos hn, ih]
      · rw [run, if_neg hn]
        rfl
  | chunk next ih =>
      rw [run, run]
      cases hfront : chunks.dropWhile List.isEmpty with
      | nil =>
          simp only [Bool.false_eq_true, if_false, if_true, Result.finish]
          rw [run, List.dropWhile_nil]
          rfl
      | cons c rest => exact ih _ _

theorem finish_feed (reader : Reader ε α) (chunks : List (List UInt8)) :
    (reader.feed chunks).finish = reader.run true chunks := by
  rw [feed_eq, finish_run]

/-! ### What was read -/

/-- The value of a reader that is done, with the bytes behind what it read. -/
def Result.value : Result ε α → Option (α × List UInt8)
  | .done a rest => some (a, rest.flatten)
  | _ => none

variable {finished : Bool} {chunks : List (List UInt8)}

variable {n : Nat} {next : Option (List UInt8) → Reader ε α}

/-- **`read_exact` with enough bytes.** -/
theorem run_bytes_of_le {next : List UInt8 → Reader ε α} (h : n ≤ chunks.flatten.length) :
    ∃ chunks', chunks'.flatten = chunks.flatten.drop n ∧
      (Reader.bytes n next).run finished chunks =
        (next (chunks.flatten.take n)).run finished chunks' := by
  refine ⟨_, flatten_dropBytes n chunks, ?_⟩
  rw [run, if_pos h]

/-- `read_exact` without. -/
theorem value_run_bytes_of_lt {next : List UInt8 → Reader ε α} (h : chunks.flatten.length < n) :
    ((Reader.bytes n next).run finished chunks).value = none := by
  rw [run, if_neg (Nat.not_le_of_lt h)]
  cases finished <;> rfl

/-- **`read_chunk` with a byte**: the chunk and what is behind it are the bytes there are. -/
theorem run_chunk_of_ne_nil (h : chunks.flatten ≠ []) :
    ∃ c chunks', c ++ chunks'.flatten = chunks.flatten ∧
      (Reader.chunk next).run finished chunks = (next (some c)).run finished chunks' := by
  cases hfront : chunks.dropWhile List.isEmpty with
  | nil => exact absurd ((dropWhile_isEmpty_eq_nil_iff chunks).mp hfront) h
  | cons c rest =>
      refine ⟨c, rest, ?_, ?_⟩
      · rw [← dropWhile_isEmpty chunks, hfront, List.flatten_cons]
      · rw [run, hfront]

/-- `read_chunk` at the end of the stream. -/
theorem run_chunk_of_finished (h : chunks.flatten = []) :
    (Reader.chunk next).run true chunks = (next none).run true [] := by
  rw [run, (dropWhile_isEmpty_eq_nil_iff chunks).mpr h]
  rfl

/-- **`read_chunk` without a byte** waits. -/
theorem run_chunk_of_eq_nil (h : chunks.flatten = []) :
    (Reader.chunk next).run false chunks = .waiting (.chunk next) [] := by
  rw [run, (dropWhile_isEmpty_eq_nil_iff chunks).mpr h]
  rfl

/-! ### Readers of bytes -/

/-- The reader has no `readChunk`, so that the chunks do not matter to it. -/
inductive Exact : Reader ε α → Prop where
  | done (a : α) : Exact (.done a)
  | fail (e : ε) : Exact (.fail e)
  | bytes {n : Nat} {next : List UInt8 → Reader ε α} (h : ∀ bytes, Exact (next bytes)) :
      Exact (.bytes n next)

/-- What such a reader makes of the bytes: a value, and those behind what it read. -/
def eval : Reader ε α → List UInt8 → Option (α × List UInt8)
  | .done a, input => some (a, input)
  | .fail _, _ => none
  | .bytes n next, input =>
    if n ≤ input.length then eval (next (input.take n)) (input.drop n) else none
  | .chunk _, _ => none

/-- **However the bytes are delivered**, that is what it comes to. -/
theorem Exact.value_run {reader : Reader ε α} (h : reader.Exact) (finished : Bool) :
    ∀ chunks, (reader.run finished chunks).value = reader.eval chunks.flatten := by
  induction h with
  | done a => exact fun _ => rfl
  | fail e => exact fun _ => rfl
  | @bytes n next _ ih =>
      intro chunks
      rw [eval]
      split_ifs with hle
      · obtain ⟨chunks', hchunks', hrun⟩ : ∃ chunks', chunks'.flatten = chunks.flatten.drop n ∧
            (Reader.bytes n next).run finished chunks =
              (next (chunks.flatten.take n)).run finished chunks' := run_bytes_of_le hle
        rw [hrun, ih, hchunks']
      · exact value_run_bytes_of_lt (Nat.lt_of_not_le hle)

theorem Exact.readExact (n : Nat) : (Reader.readExact n : Reader ε (List UInt8)).Exact :=
  .bytes fun bytes => .done bytes

theorem Exact.bind {reader : Reader ε α} {f : α → Reader ε β} (h : reader.Exact)
    (hf : ∀ a, (f a).Exact) : (reader >>= f).Exact := by
  induction h with
  | done a => exact hf a
  | fail e => exact .fail e
  | bytes _ ih => exact .bytes ih

theorem eval_bind (reader : Reader ε α) (f : α → Reader ε β) :
    ∀ input, (reader >>= f).eval input = (reader.eval input).bind fun r => (f r.1).eval r.2 := by
  induction reader with
  | done a => exact fun _ => rfl
  | fail e => exact fun _ => rfl
  | bytes n next ih =>
      intro input
      rw [bytes_bind, eval, eval]
      split_ifs
      · exact ih _ _
      · rfl
  | chunk next _ => exact fun _ => rfl

/-- **`read_exact` takes that many bytes.** -/
theorem eval_readExact_eq_some_iff {input bytes rest : List UInt8} :
    (Reader.readExact n : Reader ε (List UInt8)).eval input = some (bytes, rest) ↔
      input = bytes ++ rest ∧ bytes.length = n := by
  rw [Reader.readExact, eval]
  constructor
  · intro h
    obtain ⟨hle, h⟩ := Option.ite_none_right_eq_some.mp h
    cases h
    exact ⟨(List.take_append_drop n input).symm, List.length_take_of_le hle⟩
  · rintro ⟨rfl, rfl⟩
    rw [if_pos (by simp), List.take_left, List.drop_left]
    rfl

end Reader
