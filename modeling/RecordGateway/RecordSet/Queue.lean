import RecordGateway.Call

/-!
The queue between those who fill a record set and the one who reads it, and what its reader sees.
Rows come in the order in which they were put there; after the item that says how the set ended the
reader sees nothing more.
-/

namespace RecordGateway.RecordSet

structure Queue where
  capacity : Nat
  items : List Item := []
  /-- Whether somebody still fills the queue. -/
  isFilled : Bool := true
  /-- Whether somebody still reads the queue. -/
  isRead : Bool := true
deriving Repr

namespace Queue

/-- Puts an item at the end; `none` while there is no room. The flag tells whether anybody reads. -/
def offer? (queue : Queue) (item : Item) : Option (Bool × Queue) :=
  if !queue.isRead then some (false, queue)
  else if queue.items.length < queue.capacity then
    some (true, { queue with items := queue.items ++ [item] })
  else none

/-- Takes the first item; `none` while there is none but may come one. -/
def receive? (queue : Queue) : Option (Option Item × Queue) :=
  match queue.items with
  | item :: rest => some (some item, { queue with items := rest })
  | [] => if queue.isFilled then none else some (none, queue)

end Queue

/-- What the reader of a set knows. -/
structure Reader where
  finished : Bool := false
  /-- The filter that goes on from here, once everything is read. -/
  resume : Option Partition.Filter := none
deriving Repr

/-- The fault of a set whose queue ends without a last item. -/
def Reader.brokenOff : Fault :=
  { Fault.ofKind .client with
    code := .queryTerminated
    message := some "record producer stopped without a terminal item" }

/-- Takes what came from the queue: a row, a fault, or the end. -/
def Reader.accept (reader : Reader) :
    Option Item → Reader × Option (Except Fault (Key × Record))
  | some (.row key record) => (reader, some (.ok (key, record)))
  | some (.finished filter) => ({ finished := true, resume := some filter }, none)
  | some (.failed fault) => ({ reader with finished := true }, some (.error fault))
  | none => ({ reader with finished := true }, some (.error brokenOff))

end RecordGateway.RecordSet
