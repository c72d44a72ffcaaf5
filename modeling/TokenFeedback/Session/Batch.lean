import TokenFeedback.Record

/-!
# Batches

The records of one session, in the order in which they arrived.
-/

namespace TokenFeedback

structure Batch where
  records : List Record
  deriving DecidableEq

namespace Batch

def empty : Batch := ⟨[]⟩

def push (b : Batch) (r : Record) : Batch := ⟨b.records ++ [r]⟩

def size (b : Batch) : Nat := b.records.length

def isEmpty (b : Batch) : Bool := b.records.isEmpty

@[simp] theorem records_push (b : Batch) (r : Record) : (b.push r).records = b.records ++ [r] := rfl

end Batch

end TokenFeedback
