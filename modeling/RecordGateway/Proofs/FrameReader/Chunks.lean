import RecordGateway.Proofs.FrameReader.Progress
import RecordGateway.Proofs.Row.Extent

/-!
Where an answer is cut into frames makes no difference to who reads it. Reading is described once more on
the bytes alone, with nothing but an offset into them as its state (`ByteReading`), and a reader of frames
does what is described there, operation by operation (`Follows`), as long as the last frame comes and no wait
is cut off. Two readers whose frames carry the same bytes therefore give the same account of any list
of operations (`same_account_of_same_bytes`).
-/

namespace RecordGateway.FrameReader

open RecordGateway.Flow

/-! ### Reading bytes that are all there -/

/-- Reading of bytes that are all there. The state is the number of bytes that are read or passed over. -/
abbrev ByteReading := ExceptT Fault (StateM Nat)

namespace ByteReading

variable {α β : Type}

/-- What reading from an offset comes to, and the offset after it. -/
def runAt (reading : ByteReading α) (offset : Nat) : Except Fault α × Nat :=
  (reading.run.run offset).run

def readExact (bytes : Bytes) (count : Nat) : ByteReading Bytes := do
  let offset ← get
  if offset + count ≤ bytes.length then
    set (offset + count)
    return (bytes.drop offset).take count
  else
    throw <| .parse <|
      s!"stream ended {count - (bytes.length - offset)} bytes short of a {count} byte read "
        ++ s!"at offset {offset}"

def atEnd (bytes : Bytes) : ByteReading Bool :=
  return (← get) == bytes.length

def readGroup (bytes : Bytes) : ByteReading (Option Bytes) := do
  if ← atEnd bytes then
    return none
  let header ← Group.Header.decode (← readExact bytes Group.headerLength)
  let body ← readExact bytes header.size
  return some (← Group.unwrap header body)

def drain (bytes : Bytes) : ByteReading Unit :=
  set bytes.length

theorem runAt_bind (reading : ByteReading α) (f : α → ByteReading β) (offset : Nat) :
    runAt (reading >>= f) offset =
      match runAt reading offset with
      | (.ok value, next) => runAt (f value) next
      | (.error fault, next) => (.error fault, next) := by
  unfold runAt
  rw [ExceptT.run_bind, StateT.run_bind]
  rcases reading.run.run offset with ⟨fault | value, next⟩
  · rfl
  · rfl

theorem runAt_get_bind (f : Nat → ByteReading α) (offset : Nat) :
    runAt (get >>= f) offset = runAt (f offset) offset :=
  rfl

theorem runAt_readExact (bytes : Bytes) (count offset : Nat) :
    runAt (readExact bytes count) offset =
      if offset + count ≤ bytes.length then
        (.ok ((bytes.drop offset).take count), offset + count)
      else
        (.error <| .parse <|
          s!"stream ended {count - (bytes.length - offset)} bytes short of a {count} byte read "
            ++ s!"at offset {offset}", offset) := by
  rw [readExact, runAt_get_bind]
  split
  · rfl
  · rfl

end ByteReading

/-! ### Reading frames -/

variable {start : List Arrival} {taken : Nat} {consumed : Bytes} {reader final : FrameReader}
  {history : History} {α β : Type}

/-- From any place in an answer that nothing cuts off, the activity on frames comes to what the one on
bytes comes to, moves the offset as far, and leads to a place in the answer unless it fails. -/
def Follows (start : List Arrival) (activity : Reading α) (plain : ByteReading α) : Prop :=
  ∀ taken consumed reader history result final, Reached start taken consumed reader →
    (∀ event ∈ history, event.Prompt) → Yields activity reader history result final →
      plain.runAt reader.offset = (result, final.offset) ∧
        ∀ value, result = .ok value → ∃ taken consumed, Reached start taken consumed final

theorem follows_pure (value : α) : Follows start (pure value) (pure value) := by
  intro taken consumed reader history result final hreached _ h
  obtain ⟨rfl, rfl, rfl⟩ := yields_pure_iff.mp h
  exact ⟨rfl, fun _ _ => ⟨taken, consumed, hreached⟩⟩

theorem follows_lift (outcome : Except Fault α) :
    Follows start (liftM outcome) (liftM outcome) := by
  intro taken consumed reader history result final hreached _ h
  obtain ⟨rfl, rfl, rfl⟩ := yields_lift_iff.mp h
  refine ⟨?_, fun _ _ => ⟨taken, consumed, hreached⟩⟩
  cases result with
  | ok value => rfl
  | error fault => rfl

theorem follows_bind {activity : Reading α} {plain : ByteReading α} {f : α → Reading β}
    {g : α → ByteReading β} (hactivity : Follows start activity plain)
    (hf : ∀ value, Follows start (f value) (g value)) :
    Follows start (activity >>= f) (plain >>= g) := by
  intro taken consumed reader history result final hreached hprompt h
  rcases yields_bind_iff.mp h with
    ⟨fault, hfault, rfl⟩ | ⟨front, back, value, middle, rfl, hfront, hback⟩
  · obtain ⟨hplain, -⟩ := hactivity _ _ _ _ _ _ hreached hprompt hfault
    refine ⟨?_, nofun⟩
    rw [ByteReading.runAt_bind, hplain]
  · rw [List.forall_mem_append] at hprompt
    obtain ⟨hplain, hplaced⟩ := hactivity _ _ _ _ _ _ hreached hprompt.1 hfront
    obtain ⟨taken', consumed', hmiddle⟩ := hplaced value rfl
    rw [ByteReading.runAt_bind, hplain]
    exact hf value _ _ _ _ _ _ hmiddle hprompt.2 hback

theorem not_trouble (hlast : reachesLast start = true) (hprompt : ∀ event ∈ history, event.Prompt) :
    ¬ Trouble start history := by
  rintro (hshort | ⟨event, hmem, hlate⟩)
  · rw [hlast] at hshort
    cases hshort
  · exact hlate (hprompt event hmem)

/-- What waits in the buffer comes right behind what is consumed. -/
theorem Reached.payload_split (h : Reached start taken consumed reader) :
    ∃ more, payload start = consumed ++ (reader.buffer ++ more) := by
  obtain ⟨more, hmore⟩ := h.payload_prefix
  refine ⟨more, ?_⟩
  rw [← hmore, h.payload_eq, List.append_assoc]

/-- A read that finds too few bytes has waited for all there are, and has moved nothing. -/
theorem readExact_short {count : Nat} {fault : Fault} (hlast : reachesLast start = true)
    (hreached : Reached start taken consumed reader) (hprompt : ∀ event ∈ history, event.Prompt)
    (h : Yields (readExact count) reader history (.error fault) final) :
    payload start = consumed ++ final.buffer ∧ final.buffer.length < count ∧
      final.offset = reader.offset ∧
      fault = .parse (s!"stream ended {count - final.buffer.length} bytes short of a {count} byte read "
        ++ s!"at offset {final.offset}") := by
  unfold readExact at h
  rcases yields_bind_iff.mp h with ⟨_, hfill, _⟩ | ⟨front, back, filled, middle, rfl, hfill, h⟩
  · rcases fill_spec hreached hfill with ⟨hok, -⟩ | ⟨_, -, -, -, htrouble⟩
    · cases hok
    · exact absurd htrouble (not_trouble hlast hprompt)
  · rcases fill_spec hreached hfill with ⟨hok, hmiddle, hend⟩ | ⟨_, hfault, _⟩
    · obtain rfl := Except.ok.inj hok
      rw [yields_get_bind_iff] at h
      split at h
      · rw [yields_set_bind_iff] at h
        obtain ⟨-, hdone, -⟩ := yields_pure_iff.mp h
        cases hdone
      · next hfew =>
          obtain ⟨-, hfault, rfl⟩ := yields_throw_iff.mp h
          have hended := hend (by simpa using hfew)
          refine ⟨?_, by simpa using hfew, ?_, Except.error.inj hfault⟩
          · rw [(hmiddle.complete hended).1, hmiddle.payload_eq]
          · rw [hmiddle.offset_eq, hreached.offset_eq]
    · cases hfault

section Operations

variable (hlast : reachesLast start = true)
include hlast

theorem follows_readExact (count : Nat) :
    Follows start (readExact count) (ByteReading.readExact (payload start) count) := by
  intro taken consumed reader history result final hreached hprompt h
  rw [ByteReading.runAt_readExact]
  cases result with
  | ok bytes =>
      rcases readExact_spec hreached h with ⟨_, hok, hlength, hfinal⟩ | ⟨_, hfault, _⟩
      · obtain rfl := Except.ok.inj hok
        obtain ⟨more, hbytes⟩ := hfinal.payload_split
        have henough : reader.offset + count ≤ (payload start).length := by
          rw [hreached.offset_eq, ← hlength, ← List.length_append]
          exact hfinal.length_le
        have hslice : ((payload start).drop reader.offset).take count = bytes := by
          rw [hbytes, hreached.offset_eq, List.append_assoc, List.drop_left, ← hlength, List.take_left]
        have hmoved : final.offset = reader.offset + count := by
          rw [hfinal.offset_eq, hreached.offset_eq, List.length_append, hlength]
        rw [if_pos henough, hslice, hmoved]
        exact ⟨rfl, fun _ _ => ⟨_, _, hfinal⟩⟩
      · cases hfault
  | error fault =>
      obtain ⟨hbytes, hfew, hoffset, rfl⟩ := readExact_short hlast hreached hprompt h
      have hleft : (payload start).length - reader.offset = final.buffer.length := by
        rw [hbytes, List.length_append, hreached.offset_eq, Nat.add_sub_cancel_left]
      have hshort : ¬ reader.offset + count ≤ (payload start).length := by
        rw [hbytes, List.length_append, hreached.offset_eq]
        omega
      rw [if_neg hshort, hleft, hoffset]
      exact ⟨rfl, nofun⟩

theorem follows_atEnd : Follows start atEnd (ByteReading.atEnd (payload start)) := by
  intro taken consumed reader history result final hreached hprompt h
  rcases atEnd_spec hreached h with ⟨rfl, hfinal, hend⟩ | ⟨_, -, -, -, htrouble⟩
  · refine ⟨?_, fun _ _ => ⟨_, _, hfinal⟩⟩
    have hoffset : final.offset = reader.offset := by rw [hfinal.offset_eq, hreached.offset_eq]
    have hempty : (reader.offset == (payload start).length) = final.buffer.isEmpty := by
      cases hbuffer : final.buffer with
      | nil =>
          obtain ⟨hall, -⟩ := hfinal.complete (hend hbuffer)
          rw [hall, hfinal.payload_eq, hbuffer, List.append_nil, hreached.offset_eq]
          exact beq_self_eq_true _
      | cons byte rest =>
          obtain ⟨more, hbytes⟩ := hfinal.payload_split
          rw [hbytes, hbuffer, hreached.offset_eq, List.length_append]
          simp
    change (Except.ok (reader.offset == (payload start).length), reader.offset) = _
    rw [hempty, hoffset]
  · exact absurd htrouble (not_trouble hlast hprompt)

theorem follows_readGroup : Follows start readGroup (ByteReading.readGroup (payload start)) := by
  unfold readGroup ByteReading.readGroup
  refine follows_bind (follows_atEnd hlast) fun ended => ?_
  cases ended with
  | true => exact follows_pure none
  | false =>
      refine follows_bind (follows_readExact hlast _) fun announced => ?_
      refine follows_bind (follows_lift _) fun header => ?_
      refine follows_bind (follows_readExact hlast _) fun packed => ?_
      exact follows_bind (follows_lift _) fun body => follows_pure _

theorem follows_drain : Follows start drain (ByteReading.drain (payload start)) := by
  intro taken consumed reader history result final hreached hprompt h
  obtain ⟨more, ⟨rfl, hended, hnil, hfinal⟩ | ⟨_, -, -, htrouble⟩⟩ := drain_spec hreached h
  · refine ⟨?_, fun _ _ => ⟨_, _, hfinal⟩⟩
    have hmoved : final.offset = (payload start).length := by
      rw [(hfinal.complete hended).1, hfinal.payload_eq, hnil, List.append_nil, hfinal.offset_eq]
    rw [hmoved]
    rfl
  · exact absurd htrouble (not_trouble hlast hprompt)

end Operations

/-! ### Lists of operations -/

/-- What may be asked of a reader. -/
inductive Operation where
  | readExact (count : Nat)
  | atEnd
  | readGroup
  | drain
deriving DecidableEq, Repr

/-- What a reader gives when it is asked. -/
inductive Reply where
  | bytes (bytes : Bytes)
  | atEnd (isEnd : Bool)
  | group (body : Option Bytes)
  | drained
deriving DecidableEq, Repr

namespace Operation

def perform : Operation → Reading Reply
  | .readExact count => return .bytes (← FrameReader.readExact count)
  | .atEnd => return .atEnd (← FrameReader.atEnd)
  | .readGroup => return .group (← FrameReader.readGroup)
  | .drain => do
    FrameReader.drain
    return .drained

def onBytes (bytes : Bytes) : Operation → ByteReading Reply
  | .readExact count => return .bytes (← ByteReading.readExact bytes count)
  | .atEnd => return .atEnd (← ByteReading.atEnd bytes)
  | .readGroup => return .group (← ByteReading.readGroup bytes)
  | .drain => do
    ByteReading.drain bytes
    return .drained

theorem follows_perform (hlast : reachesLast start = true) (operation : Operation) :
    Follows start operation.perform (operation.onBytes (payload start)) := by
  cases operation with
  | readExact count => exact follows_bind (follows_readExact hlast count) fun _ => follows_pure _
  | atEnd => exact follows_bind (follows_atEnd hlast) fun _ => follows_pure _
  | readGroup => exact follows_bind (follows_readGroup hlast) fun _ => follows_pure _
  | drain => exact follows_bind (follows_drain hlast) fun _ => follows_pure _

end Operation

/-- What operations come to one after another, each with the offset after it. -/
abbrev Account := List (Except Fault Reply × Nat)

/-- Carries out operations up to the first that fails. -/
def account : List Operation → FrameReader → Flow Account
  | [], _ => return []
  | operation :: operations, reader => do
    let (result, reader) ← operation.perform.run.run reader
    match result with
    | .error _ => return [(result, reader.offset)]
    | .ok _ => return (result, reader.offset) :: (← account operations reader)

/-- The account of operations on bytes that are all there. -/
def accountOnBytes (bytes : Bytes) : List Operation → Nat → Account
  | [], _ => []
  | operation :: operations, offset =>
    let (result, offset) := (operation.onBytes bytes).runAt offset
    match result with
    | .error _ => [(result, offset)]
    | .ok _ => (result, offset) :: accountOnBytes bytes operations offset

/-- The account depends on the bytes alone. The induction is on the operations; the place in the answer
carries it. -/
theorem account_eq {operations : List Operation} {given : Account}
    (hlast : reachesLast start = true) (hreached : Reached start taken consumed reader)
    (hprompt : ∀ event ∈ history, event.Prompt) (h : (account operations reader).Ends history given) :
    given = accountOnBytes (payload start) operations reader.offset := by
  induction operations generalizing taken consumed reader history given with
  | nil => exact (ends_pure_iff.mp h).2
  | cons operation operations ih =>
      obtain ⟨front, back, ⟨result, next⟩, rfl, hfront, hback⟩ := ends_bind_iff.mp h
      rw [List.forall_mem_append] at hprompt
      obtain ⟨hplain, hplaced⟩ :=
        operation.follows_perform hlast _ _ _ _ _ _ hreached hprompt.1 hfront
      rw [accountOnBytes, hplain]
      cases result with
      | error fault => exact (ends_pure_iff.mp hback).2
      | ok reply =>
          obtain ⟨taken', consumed', hnext⟩ := hplaced reply rfl
          obtain ⟨later, rest, more, rfl, hlater, hrest⟩ := ends_bind_iff.mp hback
          rw [List.forall_mem_append] at hprompt
          obtain rfl := ih hnext hprompt.2.1 hlater
          exact (ends_pure_iff.mp hrest).2

/-- Every entry of an account is what its operation comes to at the offset that the entry before it
left. -/
theorem accountOnBytes_getElem? {bytes : Bytes} {operations : List Operation} {operation : Operation}
    {entry : Except Fault Reply × Nat} {offset before index : Nat}
    (hoperation : operations[index]? = some operation)
    (hbefore :
      (offset :: (accountOnBytes bytes operations offset).map (·.2))[index]? = some before)
    (hentry : (accountOnBytes bytes operations offset)[index]? = some entry) :
    (operation.onBytes bytes).runAt before = entry := by
  induction operations generalizing offset index with
  | nil => cases hoperation
  | cons first operations ih =>
      rw [accountOnBytes] at hbefore hentry
      rcases hfirst : (first.onBytes bytes).runAt offset with ⟨result, next⟩
      rw [hfirst] at hbefore hentry
      cases index with
      | zero =>
          obtain rfl : first = operation := by simpa using hoperation
          obtain rfl : offset = before := by simpa using hbefore
          rw [hfirst]
          cases result with
          | error fault => simpa using hentry
          | ok reply => simpa using hentry
      | succ index =>
          cases result with
          | error fault => cases hentry
          | ok reply => exact ih hoperation hbefore hentry

/-- Bytes that are read are the next of all, and as many as were asked for. -/
theorem slice_of_readExact {bytes slice : Bytes} {count before after : Nat}
    (h : ((Operation.readExact count).onBytes bytes).runAt before = (.ok (.bytes slice), after)) :
    slice.length = count ∧ slice = (bytes.drop before).take count ∧ after = before + count := by
  rw [Operation.onBytes, ByteReading.runAt_bind, ByteReading.runAt_readExact] at h
  by_cases henough : before + count ≤ bytes.length
  · rw [if_pos henough] at h
    obtain ⟨hreply, rfl⟩ := Prod.mk.inj h
    obtain rfl := Reply.bytes.inj (Except.ok.inj hreply)
    refine ⟨?_, rfl, rfl⟩
    rw [List.length_take_of_le]
    rw [List.length_drop]
    omega
  · rw [if_neg henough] at h
    cases (Prod.mk.inj h).1

theorem account_runIn {stream : FrameStream} (hlast : reachesLast stream.arrivals = true)
    (operations : List Operation) (limits : Limits) (reporter : Fault.Reporter)
    {surroundings : Surroundings} (hprompt : surroundings.Prompt) (past : History) :
    ((account operations { stream, limits, reporter }).runIn surroundings past).1 =
      accountOnBytes (payload stream.arrivals) operations 0 := by
  obtain ⟨history, hevents, hends⟩ := ends_runIn_prompt surroundings hprompt
    (account operations { stream, limits, reporter }) past
  exact account_eq hlast (reached_beginning stream limits reporter) hevents hends

/-- Two readers of the same bytes, however these are cut into frames and whatever comes after the last
frame, give the same account of any operations: that of the operations on the bytes. What is read
of it is never short, and it is the next slice of the bytes. -/
theorem same_account_of_same_bytes {one other : FrameStream}
    (hone : reachesLast one.arrivals = true) (hother : reachesLast other.arrivals = true)
    (hbytes : payload one.arrivals = payload other.arrivals) (operations : List Operation)
    (limits limits' : Limits) (reporter reporter' : Fault.Reporter)
    {surroundings surroundings' : Surroundings} (hprompt : surroundings.Prompt)
    (hprompt' : surroundings'.Prompt) (past past' : History) :
    let given : Account :=
      ((account operations { stream := one, limits, reporter }).runIn surroundings past).1
    given = ((account operations { stream := other, limits := limits', reporter := reporter' }).runIn
        surroundings' past').1 ∧
      given = accountOnBytes (payload one.arrivals) operations 0 ∧
      ∀ (index count before after : Nat) (slice : Bytes),
        operations[index]? = some (.readExact count) →
        (0 :: given.map (·.2))[index]? = some before →
        given[index]? = some (.ok (.bytes slice), after) →
          slice.length = count ∧ slice = ((payload one.arrivals).drop before).take count ∧
            after = before + count := by
  intro given
  have hgiven : given = accountOnBytes (payload one.arrivals) operations 0 :=
    account_runIn hone operations limits reporter hprompt past
  refine ⟨?_, hgiven, ?_⟩
  · rw [account_runIn hother operations limits' reporter' hprompt' past', ← hbytes]
    exact hgiven
  · intro index count before after slice hoperation hbefore hentry
    rw [hgiven] at hbefore hentry
    exact slice_of_readExact (accountOnBytes_getElem? hoperation hbefore hentry)

/-! ### Two cuts of the same bytes

A group and three more bytes come in three frames, of which one is empty, and in one frame, behind which
the transport breaks the stream off. -/

def groupAndMore : Bytes :=
  Group.plain (Row.bareRow 0 0 7 0) ++ [1, 2, 3]

def threeFrames : FrameStream where
  arrivals :=
    [⟨some 5, .ok { payload := groupAndMore.take 3, hasNext := true }⟩,
      ⟨some 0, .ok { hasNext := true }⟩,
      ⟨some 1, .ok { payload := groupAndMore.drop 3 }⟩]

def frameAndBreak : FrameStream where
  arrivals :=
    [⟨some 0, .ok { payload := groupAndMore }⟩, ⟨some 0, .error ⟨.unavailable, "", []⟩⟩]

theorem same_account_of_two_cuts :
    let operations : List Operation :=
      [.readGroup, .readExact 1, .atEnd, .drain, .atEnd, .readExact 2, .atEnd]
    let given := ((account operations { stream := threeFrames }).runIn
      (fun _ => Flow.calmAnswer) []).1
    reachesLast threeFrames.arrivals = true ∧ reachesLast frameAndBreak.arrivals = true ∧
      payload threeFrames.arrivals = payload frameAndBreak.arrivals ∧
      given = ((account operations { stream := frameAndBreak }).runIn
        (fun _ => Flow.calmAnswer) []).1 ∧
      given =
        [(.ok (.group (some (Row.bareRow 0 0 7 0))), 30), (.ok (.bytes [1]), 31),
          (.ok (.atEnd false), 31), (.ok .drained, 33), (.ok (.atEnd true), 33),
          (.error (.parse "stream ended 2 bytes short of a 2 byte read at offset 33"), 33)] := by
  intro operations given
  have hthree : reachesLast threeFrames.arrivals = true := rfl
  have hone : reachesLast frameAndBreak.arrivals = true := rfl
  have hcalm : Surroundings.Prompt fun _ => Flow.calmAnswer := fun _ _ _ => rfl
  obtain ⟨hsame, hplain, -⟩ := same_account_of_same_bytes hthree hone rfl operations {} {} {} {}
    hcalm hcalm [] []
  refine ⟨hthree, hone, rfl, hsame, ?_⟩
  exact hplain.trans rfl

end RecordGateway.FrameReader
