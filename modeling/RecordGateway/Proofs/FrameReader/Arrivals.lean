import RecordGateway.FrameReader

/-!
What the frames of an answer amount to: the bytes that they bring before one of them fails
(`payload`) and whether the last frame is among them (`reachesLast`). Frames that only carry bytes
and announce more (`Flowing`) can be split off at the front of both, and what comes after the last frame
(`Closed`) changes neither.
-/

namespace RecordGateway

/-- A frame of an answer, or the status with which the transport breaks the answer off. -/
abbrev Arrival := Delayed (Except Status Envelope.Response)

namespace FrameReader

/-- The bytes that arrivals bring, up to the last frame or the first failure. -/
def payload : List Arrival → Bytes
  | [] => []
  | ⟨_, .error _⟩ :: _ => []
  | ⟨_, .ok response⟩ :: rest =>
    if response.status ≠ 0 then []
    else if response.hasNext then response.payload ++ payload rest
    else response.payload

/-- Whether the last frame is among the arrivals, and nothing before it fails. -/
def reachesLast : List Arrival → Bool
  | [] => false
  | ⟨_, .error _⟩ :: _ => false
  | ⟨_, .ok response⟩ :: rest =>
    response.status == 0 && (!response.hasNext || reachesLast rest)

/-- Frames without a failure after each of which more are to come. -/
def Flowing (arrivals : List Arrival) : Prop :=
  ∀ arrival ∈ arrivals,
    ∃ response, arrival.value = .ok response ∧ response.status = 0 ∧ response.hasNext = true

theorem flowing_nil : Flowing [] := by
  intro arrival h
  cases h

theorem Flowing.append {front back : List Arrival} (hfront : Flowing front) (hback : Flowing back) :
    Flowing (front ++ back) := by
  intro arrival h
  rcases List.mem_append.mp h with h | h
  · exact hfront arrival h
  · exact hback arrival h

theorem flowing_singleton {delay : Option Time} {response : Envelope.Response}
    (hstatus : response.status = 0) (hnext : response.hasNext = true) :
    Flowing [⟨delay, .ok response⟩] := by
  intro arrival h
  obtain rfl := List.mem_singleton.mp h
  exact ⟨response, rfl, hstatus, hnext⟩

theorem payload_append {front : List Arrival} (hfront : Flowing front) (back : List Arrival) :
    payload (front ++ back) = payload front ++ payload back := by
  induction front with
  | nil => rfl
  | cons arrival front ih =>
      obtain ⟨response, hvalue, hstatus, hnext⟩ := hfront arrival List.mem_cons_self
      obtain ⟨delay, value⟩ := arrival
      obtain rfl : value = .ok response := hvalue
      have htail := ih fun other hother => hfront other (List.mem_cons_of_mem _ hother)
      simp [payload, hstatus, hnext, htail]

theorem reachesLast_append {front : List Arrival} (hfront : Flowing front) (back : List Arrival) :
    reachesLast (front ++ back) = reachesLast back := by
  induction front with
  | nil => rfl
  | cons arrival front ih =>
      obtain ⟨response, hvalue, hstatus, hnext⟩ := hfront arrival List.mem_cons_self
      obtain ⟨delay, value⟩ := arrival
      obtain rfl : value = .ok response := hvalue
      have htail := ih fun other hother => hfront other (List.mem_cons_of_mem _ hother)
      simp [reachesLast, hstatus, hnext, htail]

/-- Frames without a failure, of which the last one and no other announces no more. -/
def Closed (arrivals : List Arrival) : Prop :=
  ∃ front delay response, arrivals = front ++ [⟨delay, .ok response⟩] ∧ Flowing front ∧
    response.status = 0 ∧ response.hasNext = false

theorem payload_frame {delay : Option Time} {response : Envelope.Response}
    (hstatus : response.status = 0) : payload [⟨delay, .ok response⟩] = response.payload := by
  simp [payload, hstatus]

theorem payload_failing {delay : Option Time} {response : Envelope.Response}
    (hstatus : response.status ≠ 0) (rest : List Arrival) :
    payload (⟨delay, .ok response⟩ :: rest) = [] := by
  simp [payload, hstatus]

theorem reachesLast_failing {delay : Option Time} {response : Envelope.Response}
    (hstatus : response.status ≠ 0) (rest : List Arrival) :
    reachesLast (⟨delay, .ok response⟩ :: rest) = false := by
  simp [reachesLast, hstatus]

theorem payload_last {delay : Option Time} {response : Envelope.Response}
    (hstatus : response.status = 0) (hnext : response.hasNext = false) (rest : List Arrival) :
    payload (⟨delay, .ok response⟩ :: rest) = response.payload := by
  simp [payload, hstatus, hnext]

theorem reachesLast_last {delay : Option Time} {response : Envelope.Response}
    (hstatus : response.status = 0) (hnext : response.hasNext = false) (rest : List Arrival) :
    reachesLast (⟨delay, .ok response⟩ :: rest) = true := by
  simp [reachesLast, hstatus, hnext]

theorem Closed.payload_append {front : List Arrival} (hfront : Closed front) (back : List Arrival) :
    payload (front ++ back) = payload front := by
  obtain ⟨before, delay, response, rfl, hbefore, hstatus, hnext⟩ := hfront
  rw [List.append_assoc, FrameReader.payload_append hbefore, FrameReader.payload_append hbefore,
    List.singleton_append, payload_last hstatus hnext, payload_last hstatus hnext]

theorem Closed.reachesLast_append {front : List Arrival} (hfront : Closed front)
    (back : List Arrival) : reachesLast (front ++ back) = true := by
  obtain ⟨before, delay, response, rfl, hbefore, hstatus, hnext⟩ := hfront
  rw [List.append_assoc, FrameReader.reachesLast_append hbefore, List.singleton_append,
    reachesLast_last hstatus hnext]

/-- The last frame is among the arrivals if they begin with frames up to it. -/
theorem reachesLast_iff {arrivals : List Arrival} :
    reachesLast arrivals = true ↔ ∃ front back, Closed front ∧ arrivals = front ++ back := by
  constructor
  · intro hlast
    induction arrivals with
    | nil => cases hlast
    | cons arrival rest ih =>
        obtain ⟨delay, value⟩ := arrival
        cases value with
        | error status => cases hlast
        | ok response =>
            rw [reachesLast, Bool.and_eq_true, beq_iff_eq] at hlast
            obtain ⟨hstatus, hmore⟩ := hlast
            cases hnext : response.hasNext with
            | false =>
                exact ⟨_, rest, ⟨[], delay, response, rfl, flowing_nil, hstatus, hnext⟩, rfl⟩
            | true =>
                rw [hnext] at hmore
                obtain ⟨front, back, ⟨before, delay', last, rfl, hbefore, hend⟩, rfl⟩ := ih hmore
                have hflowing : Flowing (⟨delay, .ok response⟩ :: before) :=
                  (flowing_singleton hstatus hnext).append hbefore
                exact ⟨_ :: (before ++ [⟨delay', .ok last⟩]), back,
                  ⟨_ :: before, delay', last, rfl, hflowing, hend⟩, rfl⟩
  · rintro ⟨front, back, hfront, rfl⟩
    exact hfront.reachesLast_append back

/-- A reader has at least the bytes before it that its arrivals bring. -/
theorem length_payload_le_pending (reader : FrameReader) :
    (payload reader.stream.arrivals).length ≤ reader.pending := by
  rw [pending]
  induction reader.stream.arrivals with
  | nil => exact Nat.zero_le _
  | cons arrival rest ih =>
      obtain ⟨delay, value⟩ := arrival
      cases value with
      | error status => exact Nat.zero_le _
      | ok response =>
          rw [payload, List.foldr_cons]
          split
          · exact Nat.zero_le _
          · split
            · rw [List.length_append]
              exact Nat.add_le_add_left ih _
            · exact Nat.le_add_right _ _

/-- So there is fuel for every group of an answer of which nothing is read yet. -/
theorem length_payload_lt_fuel (reader : FrameReader) :
    (payload reader.stream.arrivals).length < ([] : Bytes).length + (reader.pending + 1) := by
  rw [List.length_nil, Nat.zero_add]
  exact Nat.lt_succ_of_le (length_payload_le_pending reader)

/-! ### Cutting bytes into frames -/

/-- The arrivals carry the bytes whole: cut anywhere, in frames that may be empty, of which exactly
the last one says that it is the last. -/
inductive Carry : List Arrival → Bytes → Prop where
  | last {delay : Option Time} {response : Envelope.Response} :
      response.status = 0 → response.hasNext = false →
      Carry [⟨delay, .ok response⟩] response.payload
  | frame {delay : Option Time} {response : Envelope.Response} {rest : List Arrival}
      {bytes : Bytes} :
      response.status = 0 → response.hasNext = true → Carry rest bytes →
      Carry (⟨delay, .ok response⟩ :: rest) (response.payload ++ bytes)

variable {arrivals : List Arrival} {bytes : Bytes}

theorem Carry.payload_eq (h : Carry arrivals bytes) : payload arrivals = bytes := by
  induction h with
  | last hstatus hnext => exact payload_last hstatus hnext []
  | frame hstatus hnext _ ih => simp [payload, hstatus, hnext, ih]

theorem Carry.reachesLast_eq (h : Carry arrivals bytes) : reachesLast arrivals = true := by
  induction h with
  | last hstatus hnext => exact reachesLast_last hstatus hnext []
  | frame hstatus hnext _ ih => simp [reachesLast, hstatus, ih]

end FrameReader
end RecordGateway
