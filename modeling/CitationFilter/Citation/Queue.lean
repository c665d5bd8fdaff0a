import CitationFilter.Error

/-!
# The queue of formatted texts

The formatted texts of all occurrences wait in a queue, in the order of the occurrences. They are
taken from the front, several at a time where a cite node has several citations, and in the end
none may be left.
-/

namespace CitationFilter

/-- The formatted texts that have not been used yet. -/
structure FormattedQueue where
  /-- The texts, the next one first. -/
  texts : List String
deriving DecidableEq, Repr

namespace FormattedQueue

/-- How many texts are left. -/
def length (queue : FormattedQueue) : Nat := queue.texts.length

/-- Whether no text is left. -/
def isEmpty (queue : FormattedQueue) : Bool := queue.texts.isEmpty

/-- Takes the next texts from the front, if there are as many. -/
def take (queue : FormattedQueue) (n : Nat) : Except Error (List String × FormattedQueue) :=
  if queue.length < n then .error .queueExhausted
  else .ok (queue.texts.take n, ⟨queue.texts.drop n⟩)

/-- Checks that every text has been used. -/
def finish (queue : FormattedQueue) : Except Error Unit :=
  if queue.isEmpty then .ok () else .error (.queueNotDrained queue.length)

end FormattedQueue

end CitationFilter
