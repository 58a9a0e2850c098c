import RecordGateway.Proofs.Flow.History
import RecordGateway.Proofs.FrameReader.Arrivals
import RecordGateway.Proofs.Group.Packing

/-!
How far the reading of an answer has come. `Reached start taken consumed reader` says that of the
arrivals with which the answer began, `taken` have been taken in and none after the last frame, that
`consumed` has been read of their bytes, and that the rest of these bytes waits in the buffer. Every activity of a reader moves
from one such point to a later one, and `taken` grows by the arrivals that its history counts. When
it fails, the bytes that have arrived are still the bytes consumed and the bytes left (`Stopped`), and
the reason is in the frames or in a wait that was cut off (`Trouble`), or else in the bytes.
-/

namespace RecordGateway.FrameReader

open RecordGateway.Flow

/-- How far the reading of an answer has come. -/
structure Reached (start : List Arrival) (taken : Nat) (consumed : Bytes) (reader : FrameReader) :
    Prop where
  arrivals_eq : reader.stream.arrivals = start.drop taken
  payload_eq : payload (start.take taken) = consumed ++ reader.buffer
  offset_eq : reader.offset = consumed.length
  flowing : reader.ended = false → Flowing (start.take taken)
  closed : reader.ended = true → Closed (start.take taken)

/-- Why reading can fail although the bytes are sound: the frames break off, or a wait is cut off. -/
def Trouble (start : List Arrival) (history : History) : Prop :=
  reachesLast start = false ∨ ∃ event ∈ history, ¬ event.Prompt

/-- Where reading stands after a failure: the bytes that have arrived are those consumed and those
left. -/
def Stopped (start : List Arrival) (taken : Nat) (consumed left : Bytes) : Prop :=
  payload (start.take taken) = consumed ++ left

variable {start : List Arrival} {taken : Nat} {consumed : Bytes} {reader final : FrameReader}
  {history : History}

theorem Trouble.append_right {front back : History} (h : Trouble start back) :
    Trouble start (front ++ back) := by
  rcases h with h | ⟨event, hmem, hevent⟩
  · exact .inl h
  · exact .inr ⟨event, List.mem_append_right _ hmem, hevent⟩

theorem reached_beginning (stream : FrameStream) (limits : Limits) (reporter : Fault.Reporter) :
    Reached stream.arrivals 0 [] { stream, limits, reporter } where
  arrivals_eq := rfl
  payload_eq := rfl
  offset_eq := rfl
  flowing := fun _ => flowing_nil
  closed := fun h => by cases h

/-- After the last frame all that the answer brings has arrived. -/
theorem Reached.complete (h : Reached start taken consumed reader) (hended : reader.ended = true) :
    payload start = payload (start.take taken) ∧ reachesLast start = true := by
  have hclosed := h.closed hended
  have hsplit := List.take_append_drop taken start
  constructor
  · conv_lhs => rw [← hsplit, hclosed.payload_append]
  · rw [← hsplit, hclosed.reachesLast_append]

/-- What has been taken in and what is still in the stream are the whole answer. -/
theorem Reached.split_eq (h : Reached start taken consumed reader) :
    start = start.take taken ++ reader.stream.arrivals := by
  rw [h.arrivals_eq, List.take_append_drop]

/-- What has arrived is the beginning of all that arrives. -/
theorem Reached.payload_prefix (h : Reached start taken consumed reader) :
    payload (start.take taken) <+: payload start := by
  cases hended : reader.ended with
  | true => exact (h.complete hended).1 ▸ List.prefix_rfl
  | false =>
      rw [← List.take_append_drop taken start, payload_append (h.flowing hended),
        List.take_append_drop]
      exact List.prefix_append _ _

/-- No more is consumed than the answer brings. -/
theorem Reached.length_le (h : Reached start taken consumed reader) :
    consumed.length ≤ (payload start).length := by
  have hbegins := h.payload_prefix.length_le
  rw [h.payload_eq, List.length_append] at hbegins
  omega

theorem Reached.rest_ne_nil (h : Reached start taken consumed reader) (hbuffer : reader.buffer ≠ [])
    {rest : Bytes} (hrest : payload start = consumed ++ rest) : rest ≠ [] := by
  rintro rfl
  have hbegins := h.payload_prefix.length_le
  rw [h.payload_eq, hrest, List.append_nil, List.length_append] at hbegins
  exact hbuffer (List.length_eq_zero_iff.mp (by omega))

/-- What had not been read before begins with what has been read since and what waits in the
buffer. -/
theorem Reached.rest_eq {read : Bytes} (h : Reached start taken (consumed ++ read) reader)
    {rest : Bytes} (hrest : payload start = consumed ++ rest) :
    ∃ more, rest = read ++ (reader.buffer ++ more) := by
  obtain ⟨more, hmore⟩ := h.payload_prefix
  rw [h.payload_eq, hrest, List.append_assoc, List.append_assoc] at hmore
  exact ⟨more, (List.append_cancel_left hmore).symm⟩

/-! ### Taking in a frame -/

/-- Waiting for a frame changes nothing but the moment at which the frame is due. -/
theorem waitForFrame_spec {result : Except Fault Waited}
    (h : Yields waitForFrame reader history result final) :
    ∃ waited due, result = .ok waited ∧ final = { reader with stream.due := due } ∧
      arrivalCount history = (if waited = .arrived then 1 else 0) ∧
      (waited ≠ .arrived → ∃ event ∈ history, ¬ event.Prompt) := by
  -- Whatever is found to be due, the wait for it is the only event that counts.
  have hwait : ∀ (due : Option Time) (stored : Option (Option Time)) (rest : History),
      Yields (ask (.wait due reader.limits)) { reader with stream.due := stored } rest result final →
      ∃ waited due, result = .ok waited ∧ final = { reader with stream.due := due } ∧
        arrivalCount rest = (if waited = .arrived then 1 else 0) ∧
        (waited ≠ .arrived → ∃ event ∈ rest, ¬ event.Prompt) := by
    intro due stored rest hrest
    obtain ⟨waited, rfl, rfl, rfl⟩ := yields_query_iff.mp hrest
    refine ⟨waited, stored, rfl, rfl, ?_, ?_⟩
    · cases waited <;> rfl
    · exact fun hne => ⟨_, List.mem_singleton_self _, hne⟩
  unfold waitForFrame at h
  rw [yields_get_bind_iff] at h
  dsimp only at h
  split at h
  · exact hwait _ _ _ h
  · exact hwait _ _ _ h
  · obtain ⟨now, rest, rfl, hrest⟩ := yields_query_bind_iff.mp h
    obtain ⟨waited, due, hresult, hfinal, hcount, hlate⟩ := hwait _ _ _ hrest
    refine ⟨waited, due, hresult, hfinal, ?_, ?_⟩
    · rw [← hcount]
      rfl
    · intro hne
      obtain ⟨event, hmem, hevent⟩ := hlate hne
      exact ⟨event, List.mem_cons_of_mem _ hmem, hevent⟩

theorem take_succ_of_drop_eq {arrival : Arrival} {rest : List Arrival}
    (h : start.drop taken = arrival :: rest) :
    start.take (taken + 1) = start.take taken ++ [arrival] ∧ start.drop (taken + 1) = rest := by
  have hget : start[taken]? = some arrival := by
    rw [← List.head?_drop, h]
    rfl
  constructor
  · rw [List.take_add_one, hget]
    rfl
  · rw [← List.tail_drop, h]
    rfl

/-- What `nextFrame` can do: nothing after the last frame, take one frame, or fail. -/
inductive NextFrame (start : List Arrival) (taken : Nat) (consumed : Bytes) (reader : FrameReader)
    (history : History) : Except Fault Bool → FrameReader → Prop where
  | ended : reader.ended = true → history = [] →
      NextFrame start taken consumed reader history (.ok false) reader
  | frame {final : FrameReader} :
      arrivalCount history = 1 →
      Reached start (taken + 1) consumed final →
      final.stream.arrivals.length < reader.stream.arrivals.length →
      NextFrame start taken consumed reader history (.ok true) final
  | failed {fault : Fault} {final : FrameReader} :
      final.buffer = reader.buffer →
      Stopped start (taken + arrivalCount history) consumed reader.buffer →
      Trouble start history →
      NextFrame start taken consumed reader history (.error fault) final

/-- A sound frame moves the reading on by one arrival. -/
theorem Reached.frame {delay : Option Time} {response : Envelope.Response} {rest : List Arrival}
    (h : Reached start taken consumed reader) (hended : reader.ended = false)
    (hfirst : start.drop taken = ⟨delay, .ok response⟩ :: rest) (hstatus : response.status = 0)
    (harrivals : final.stream.arrivals = rest)
    (hbuffer : final.buffer = reader.buffer ++ response.payload)
    (hoffset : final.offset = reader.offset) (hlast : final.ended = !response.hasNext) :
    Reached start (taken + 1) consumed final := by
  have hflowing := h.flowing hended
  obtain ⟨htake, hdrop⟩ := take_succ_of_drop_eq hfirst
  constructor
  · rw [harrivals, hdrop]
  · rw [htake, payload_append hflowing, payload_frame hstatus, h.payload_eq, hbuffer,
      List.append_assoc]
  · rw [hoffset, h.offset_eq]
  · intro hmore
    have hnext : response.hasNext = true := by simpa [hlast] using hmore
    rw [htake]
    exact hflowing.append (flowing_singleton hstatus hnext)
  · intro hnone
    have hnext : response.hasNext = false := by simpa [hlast] using hnone
    exact ⟨_, delay, response, htake, hflowing, hstatus, hnext⟩

theorem takeFrame_spec {result : Except Fault Unit} (hreached : Reached start taken consumed reader)
    (hended : reader.ended = false) (h : Yields takeFrame reader history result final) :
    history = [] ∧
      ((result = .ok () ∧ Reached start (taken + 1) consumed final ∧
          final.stream.arrivals.length < reader.stream.arrivals.length) ∨
        ∃ fault, result = .error fault ∧ final.buffer = reader.buffer ∧
          Stopped start (taken + 1) consumed reader.buffer ∧ reachesLast start = false) := by
  have hflowing := hreached.flowing hended
  have hpayload := hreached.payload_eq
  have harrivals := hreached.arrivals_eq
  have hsplit := List.take_append_drop taken start
  unfold takeFrame at h
  rw [yields_get_bind_iff] at h
  split at h
  · next hnone =>
      obtain ⟨rfl, rfl, rfl⟩ := yields_throw_iff.mp h
      have hall : start.drop taken = [] := by rw [← harrivals, hnone]
      have hlength : start.length ≤ taken := List.drop_eq_nil_iff.mp hall
      rw [hall, List.append_nil] at hsplit
      refine ⟨rfl, .inr ⟨_, rfl, rfl, ?_, ?_⟩⟩
      · rw [Stopped, List.take_of_length_le (Nat.le_succ_of_le hlength), ← hpayload, hsplit]
      · rw [← hsplit, ← List.append_nil (start.take taken), reachesLast_append hflowing]
        rfl
  · next delay status rest hfirst =>
      rw [yields_set_bind_iff] at h
      obtain ⟨rfl, rfl, rfl⟩ := yields_throw_iff.mp h
      rw [harrivals] at hfirst
      refine ⟨rfl, .inr ⟨_, rfl, rfl, ?_, ?_⟩⟩
      · rw [Stopped, (take_succ_of_drop_eq hfirst).1, payload_append hflowing, hpayload]
        exact List.append_nil _
      · rw [← hsplit, hfirst, reachesLast_append hflowing]
        rfl
  · next delay response rest hfirst =>
      rw [harrivals] at hfirst
      obtain ⟨htake, hdrop⟩ := take_succ_of_drop_eq hfirst
      dsimp only at h
      split at h
      · next hstatus =>
          rw [yields_set_bind_iff] at h
          obtain ⟨rfl, rfl, rfl⟩ := yields_throw_bind_iff.mp h
          refine ⟨rfl, .inr ⟨_, rfl, rfl, ?_, ?_⟩⟩
          · rw [Stopped, htake, payload_append hflowing, payload_failing hstatus, List.append_nil,
              hpayload]
          · rw [← hsplit, hfirst, reachesLast_append hflowing, reachesLast_failing hstatus]
      · next hstatus =>
          obtain ⟨rfl, rfl, rfl⟩ := yields_set_iff.mp h
          rw [Decidable.not_not] at hstatus
          refine ⟨rfl, .inl ⟨rfl, hreached.frame hended hfirst hstatus rfl rfl rfl rfl, ?_⟩⟩
          rw [harrivals, hfirst]
          exact Nat.lt_succ_self _

theorem nextFrame_spec {result : Except Fault Bool} (hreached : Reached start taken consumed reader)
    (h : Yields nextFrame reader history result final) :
    NextFrame start taken consumed reader history result final := by
  unfold nextFrame at h
  rw [yields_get_bind_iff] at h
  split at h
  · next hended =>
      obtain ⟨rfl, rfl, rfl⟩ := yields_pure_iff.mp h
      exact .ended hended rfl
  · next hended =>
      rcases yields_bind_iff.mp h with ⟨fault, hwait, rfl⟩ | ⟨front, back, waited, middle, rfl, hwait, h⟩
      · obtain ⟨_, _, hresult, _⟩ := waitForFrame_spec hwait
        cases hresult
      · obtain ⟨_, due, hresult, rfl, hcount, hlate⟩ := waitForFrame_spec hwait
        obtain rfl := Except.ok.inj hresult
        have hmiddle : Reached start taken consumed { reader with stream.due := due } :=
          ⟨hreached.arrivals_eq, hreached.payload_eq, hreached.offset_eq, hreached.flowing,
            hreached.closed⟩
        cases waited with
        | arrived =>
            rcases yields_bind_iff.mp h with ⟨fault, htake, rfl⟩ | ⟨front', back, _, _, rfl, htake, h⟩
            · obtain ⟨rfl, ⟨hok, _⟩ | ⟨_, _, hbuffer, hstopped, htrouble⟩⟩ :=
                takeFrame_spec hmiddle (Bool.eq_false_iff.mpr hended) htake
              · cases hok
              · refine .failed hbuffer ?_ (.inl htrouble)
                rwa [List.append_nil, hcount]
            · obtain ⟨rfl, rfl, rfl⟩ := yields_pure_iff.mp h
              obtain ⟨rfl, ⟨_, hnext, hfewer⟩ | ⟨_, hfault, _⟩⟩ :=
                takeFrame_spec hmiddle (Bool.eq_false_iff.mpr hended) htake
              · exact .frame (by rw [List.append_nil, List.append_nil, hcount]; rfl) hnext hfewer
              · cases hfault
        | timedOut =>
            rw [yields_get_bind_iff] at h
            obtain ⟨rfl, rfl, rfl⟩ := yields_throw_iff.mp h
            rw [List.append_nil]
            refine .failed rfl ?_ (.inr (hlate (by decide)))
            rw [hcount]
            exact hreached.payload_eq
        | cancelled =>
            obtain ⟨rfl, rfl, rfl⟩ := yields_throw_iff.mp h
            rw [List.append_nil]
            refine .failed rfl ?_ (.inr (hlate (by decide)))
            rw [hcount]
            exact hreached.payload_eq

/-! ### Filling the buffer -/

/-- Frames are taken in until the buffer is enough, and only the end of the answer comes before. -/
theorem fillFrom_spec {enough : Bytes → Bool} {fuel : Nat} {result : Except Fault Bool}
    (hreached : Reached start taken consumed reader) (hfuel : reader.stream.arrivals.length < fuel)
    (h : Yields (fillFrom enough fuel) reader history result final) :
    (result = .ok (enough final.buffer) ∧
        Reached start (taken + arrivalCount history) consumed final ∧
        (enough final.buffer = false → final.ended = true)) ∨
      ∃ fault, result = .error fault ∧ enough final.buffer = false ∧
        Stopped start (taken + arrivalCount history) consumed final.buffer ∧
        Trouble start history := by
  induction fuel generalizing reader taken history with
  | zero => exact absurd hfuel (Nat.not_lt_zero _)
  | succ fuel ih =>
      rw [fillFrom, yields_get_bind_iff] at h
      split at h
      · next henough =>
          obtain ⟨rfl, rfl, rfl⟩ := yields_pure_iff.mp h
          refine .inl ⟨by rw [henough], hreached, fun hnot => ?_⟩
          rw [henough] at hnot
          cases hnot
      · next henough =>
          rw [Bool.not_eq_true] at henough
          rcases yields_bind_iff.mp h with ⟨fault, hnext, rfl⟩ | ⟨front, back, more, middle, rfl, hnext, h⟩
          · cases nextFrame_spec hreached hnext with
            | failed hbuffer hstopped htrouble =>
                rw [← hbuffer] at henough hstopped
                exact .inr ⟨fault, rfl, henough, hstopped, htrouble⟩
          · cases nextFrame_spec hreached hnext with
            | ended hended hfront =>
                obtain ⟨rfl, rfl, rfl⟩ := yields_pure_iff.mp h
                subst hfront
                exact .inl ⟨by rw [henough], hreached, fun _ => hended⟩
            | frame hcount hmiddle hfewer =>
                rw [if_pos rfl] at h
                rw [arrivalCount_append, hcount, ← Nat.add_assoc]
                rcases ih hmiddle (by omega) h with hdone | ⟨fault, hfault, hshort, hstopped, htrouble⟩
                · exact .inl hdone
                · exact .inr ⟨fault, hfault, hshort, hstopped, htrouble.append_right⟩

theorem fill_spec {enough : Bytes → Bool} {result : Except Fault Bool}
    (hreached : Reached start taken consumed reader)
    (h : Yields (fill enough) reader history result final) :
    (result = .ok (enough final.buffer) ∧
        Reached start (taken + arrivalCount history) consumed final ∧
        (enough final.buffer = false → final.ended = true)) ∨
      ∃ fault, result = .error fault ∧ enough final.buffer = false ∧
        Stopped start (taken + arrivalCount history) consumed final.buffer ∧
        Trouble start history := by
  unfold fill at h
  rw [yields_get_bind_iff] at h
  exact fillFrom_spec hreached (Nat.lt_succ_self _) h

/-- Reading gives exactly the bytes that it asks for, or there are fewer. -/
theorem readExact_spec {count : Nat} {result : Except Fault Bytes}
    (hreached : Reached start taken consumed reader)
    (h : Yields (readExact count) reader history result final) :
    (∃ bytes, result = .ok bytes ∧ bytes.length = count ∧
        Reached start (taken + arrivalCount history) (consumed ++ bytes) final) ∨
      ∃ fault, result = .error fault ∧ final.buffer.length < count ∧
        Stopped start (taken + arrivalCount history) consumed final.buffer ∧
        (Trouble start history ∨ payload start = consumed ++ final.buffer) := by
  unfold readExact at h
  rcases yields_bind_iff.mp h with ⟨fault, hfill, rfl⟩ | ⟨front, back, filled, middle, rfl, hfill, h⟩
  · rcases fill_spec hreached hfill with ⟨hok, _⟩ | ⟨fault, hfault, hshort, hstopped, htrouble⟩
    · cases hok
    · exact .inr ⟨_, rfl, by simpa using hshort, hstopped, .inl htrouble⟩
  · rcases fill_spec hreached hfill with ⟨hok, hmiddle, hend⟩ | ⟨_, hfault, _⟩
    · obtain rfl := Except.ok.inj hok
      rw [yields_get_bind_iff] at h
      rw [arrivalCount_append]
      split at h
      · next henough =>
          rw [decide_eq_true_iff] at henough
          rw [yields_set_bind_iff] at h
          obtain ⟨rfl, rfl, rfl⟩ := yields_pure_iff.mp h
          refine .inl ⟨_, rfl, List.length_take_of_le henough, ?_⟩
          refine ⟨hmiddle.arrivals_eq, ?_, ?_, hmiddle.flowing, hmiddle.closed⟩
          · rw [List.append_assoc, List.take_append_drop]
            exact hmiddle.payload_eq
          · rw [List.length_append, List.length_take_of_le henough, hmiddle.offset_eq]
      · next henough =>
          obtain ⟨rfl, rfl, rfl⟩ := yields_throw_iff.mp h
          have hended := hend (by simpa using henough)
          rw [decide_eq_true_iff, Nat.not_le] at henough
          refine .inr ⟨_, rfl, henough, hmiddle.payload_eq, .inr ?_⟩
          rw [(hmiddle.complete hended).1, hmiddle.payload_eq]
    · cases hfault

theorem atEnd_spec {result : Except Fault Bool} (hreached : Reached start taken consumed reader)
    (h : Yields atEnd reader history result final) :
    (result = .ok final.buffer.isEmpty ∧
        Reached start (taken + arrivalCount history) consumed final ∧
        (final.buffer = [] → final.ended = true)) ∨
      ∃ fault, result = .error fault ∧ final.buffer = [] ∧
        Stopped start (taken + arrivalCount history) consumed [] ∧ Trouble start history := by
  unfold atEnd at h
  rcases yields_bind_iff.mp h with ⟨fault, hfill, rfl⟩ | ⟨front, back, filled, middle, rfl, hfill, h⟩
  · rcases fill_spec hreached hfill with ⟨hok, _⟩ | ⟨fault, hfault, hempty, hstopped, htrouble⟩
    · cases hok
    · have hnil : final.buffer = [] := by simpa using hempty
      rw [hnil] at hstopped
      exact .inr ⟨_, rfl, hnil, hstopped, htrouble⟩
  · rcases fill_spec hreached hfill with ⟨hok, hmiddle, hend⟩ | ⟨_, hfault, _⟩
    · obtain rfl := Except.ok.inj hok
      obtain ⟨rfl, rfl, rfl⟩ := yields_pure_iff.mp h
      rw [List.append_nil]
      refine .inl ⟨by rw [Bool.not_not], hmiddle, fun hnil => hend ?_⟩
      rw [hnil]
      rfl
    · cases hfault

/-! ### Groups -/

/-- What `readGroup` can do: find the answer at its end, take one group, or fail. A failure leaves no
whole sound group behind among the bytes that have arrived, and if there was no trouble, none will
come. -/
inductive ReadGroup (start : List Arrival) (taken : Nat) (consumed : Bytes) (history : History) :
    Except Fault (Option Bytes) → FrameReader → Prop where
  | finished {final : FrameReader} :
      Reached start (taken + arrivalCount history) consumed final →
      final.ended = true → final.buffer = [] →
      ReadGroup start taken consumed history (.ok none) final
  | group {body wire : Bytes} {final : FrameReader} :
      Reached start (taken + arrivalCount history) (consumed ++ wire) final →
      (∀ rest, Group.first? (wire ++ rest) = some (body, rest)) →
      ReadGroup start taken consumed history (.ok (some body)) final
  | failed {fault : Fault} {left : Bytes} {final : FrameReader} :
      Stopped start (taken + arrivalCount history) consumed left →
      Group.first? left = none →
      (Trouble start history ∨
        ∀ rest, payload start = consumed ++ rest → rest ≠ [] ∧ Group.first? rest = none) →
      ReadGroup start taken consumed history (.error fault) final

/-- Who reads groups and has fuel for every byte still has it after a group. -/
theorem lt_fuel_after_group {whole fuel : Nat} {consumed wire body : Bytes}
    (hwire : ∀ rest, Group.first? (wire ++ rest) = some (body, rest))
    (hfuel : whole < consumed.length + (fuel + 1)) : whole < (consumed ++ wire).length + fuel := by
  have hwidth := Group.length_of_first? (hwire [])
  have hheader : 0 < Group.headerLength := by decide
  rw [List.append_nil] at hwidth
  rw [List.length_append]
  omega

theorem ReadGroup.after {front back : History} {result : Except Fault (Option Bytes)}
    (h : ReadGroup start (taken + arrivalCount front) consumed back result final) :
    ReadGroup start taken consumed (front ++ back) result final := by
  cases h with
  | finished hfinal hended hnil =>
      rw [Nat.add_assoc, ← arrivalCount_append] at hfinal
      exact .finished hfinal hended hnil
  | group hfinal hgroup =>
      rw [Nat.add_assoc, ← arrivalCount_append] at hfinal
      exact .group hfinal hgroup
  | failed hstopped hleft hwhy =>
      rw [Nat.add_assoc, ← arrivalCount_append] at hstopped
      exact .failed hstopped hleft (hwhy.imp_left Trouble.append_right)

/-- Reading the body that a header announces. -/
theorem readBody_spec {result : Except Fault (Option Bytes)} {header : Group.Header}
    {announced : Bytes} (hreached : Reached start taken (consumed ++ announced) reader)
    (hsome : ∀ rest, payload start = consumed ++ rest → rest ≠ [])
    (hfirst : ∀ rest, Group.first? (announced ++ rest) =
      if rest.length < header.size then none
      else (Group.unwrap header (rest.take header.size)).toOption.map fun body =>
        (body, rest.drop header.size))
    (h : Yields (do
        let packed ← readExact header.size
        return some (← liftM (Group.unwrap header packed))) reader history result final) :
    ReadGroup start taken consumed history result final := by
  rcases yields_bind_iff.mp h with
    ⟨fault, hread, rfl⟩ | ⟨front, back, packed, middle, rfl, hread, hunwrap⟩
  · rcases readExact_spec hreached hread with ⟨_, hok, _⟩ | ⟨_, _, hshort, hstopped, hwhy⟩
    · cases hok
    · have hnone : Group.first? (announced ++ final.buffer) = none := by
        rw [hfirst, if_pos hshort]
      rw [Stopped, List.append_assoc] at hstopped
      refine .failed hstopped hnone (hwhy.imp_right ?_)
      intro hall rest hrest
      have hbytes : payload start = consumed ++ (announced ++ final.buffer) := by
        rw [hall, List.append_assoc]
      obtain rfl := List.append_cancel_left (hbytes.symm.trans hrest)
      exact ⟨hsome _ hbytes, hnone⟩
  rcases readExact_spec hreached hread with ⟨_, hok, hpacked, hfinal⟩ | ⟨_, hfault, _⟩
  case inr => cases hfault
  obtain rfl := Except.ok.inj hok
  have hwhole : ∀ rest, Group.first? (announced ++ packed ++ rest) =
      (Group.unwrap header packed).toOption.map fun body => (body, rest) := by
    intro rest
    have hheld := hfirst (packed ++ rest)
    rw [if_neg (by rw [List.length_append]; omega), ← hpacked, List.take_left, List.drop_left] at hheld
    rw [List.append_assoc]
    exact hheld
  rw [List.append_assoc] at hfinal
  rcases yields_bind_iff.mp hunwrap with
    ⟨fault, hbad, rfl⟩ | ⟨_, back, body, _, rfl, hgood, hdone⟩
  · obtain ⟨rfl, hfault, rfl⟩ := yields_lift_iff.mp hbad
    rw [← hfault] at hwhole
    rw [List.append_nil]
    refine .failed ?_ (hwhole final.buffer) (.inr ?_)
    · rw [Stopped, hfinal.payload_eq, List.append_assoc]
    · intro rest hall
      obtain ⟨more, rfl⟩ := hfinal.rest_eq hall
      exact ⟨hsome _ hall, hwhole _⟩
  · obtain ⟨rfl, hplain, rfl⟩ := yields_lift_iff.mp hgood
    obtain ⟨rfl, rfl, rfl⟩ := yields_pure_iff.mp hdone
    rw [← hplain] at hwhole
    rw [List.nil_append, List.append_nil]
    exact .group hfinal hwhole

/-- Reading a group that has begun to arrive: its header, and as many bytes as that announces. -/
theorem readBegun_spec {result : Except Fault (Option Bytes)}
    (hreached : Reached start taken consumed reader) (hbuffer : reader.buffer ≠ [])
    (h : Yields (do
        let header ← liftM (Group.Header.decode (← readExact Group.headerLength))
        let packed ← readExact header.size
        return some (← liftM (Group.unwrap header packed))) reader history result final) :
    ReadGroup start taken consumed history result final := by
  have hsome : ∀ rest, payload start = consumed ++ rest → rest ≠ [] := fun _ hall =>
    hreached.rest_ne_nil hbuffer hall
  rcases yields_bind_iff.mp h with
    ⟨fault, hread, rfl⟩ | ⟨front, back, announced, middle, rfl, hread, hheader⟩
  · rcases readExact_spec hreached hread with ⟨_, hok, _⟩ | ⟨_, _, hshort, hstopped, hwhy⟩
    · cases hok
    · refine .failed hstopped (Group.first?_of_length_lt hshort) (hwhy.imp_right ?_)
      intro hall rest hrest
      obtain rfl := List.append_cancel_left (hall.symm.trans hrest)
      exact ⟨hsome _ hrest, Group.first?_of_length_lt hshort⟩
  rcases readExact_spec hreached hread with ⟨_, hok, hlength, hmiddle⟩ | ⟨_, hfault, _⟩
  case inr => cases hfault
  obtain rfl := Except.ok.inj hok
  refine ReadGroup.after ?_
  rcases yields_bind_iff.mp hheader with
    ⟨fault, hdecode, rfl⟩ | ⟨_, back, header, _, rfl, hdecode, hbody⟩
  · obtain ⟨rfl, hbad, rfl⟩ := yields_lift_iff.mp hdecode
    have hnone := Group.first?_of_bad_header hlength hbad.symm
    have hstopped : Stopped start (taken + arrivalCount front) consumed
        (announced ++ final.buffer) := by
      rw [Stopped, hmiddle.payload_eq, List.append_assoc]
    refine .failed hstopped (hnone final.buffer) (.inr ?_)
    intro rest hall
    obtain ⟨more, rfl⟩ := hmiddle.rest_eq hall
    exact ⟨hsome _ hall, hnone _⟩
  obtain ⟨rfl, hgood, rfl⟩ := yields_lift_iff.mp hdecode
  exact readBody_spec hmiddle hsome (Group.first?_of_header hlength hgood.symm) hbody

theorem readGroup_spec {result : Except Fault (Option Bytes)}
    (hreached : Reached start taken consumed reader)
    (h : Yields readGroup reader history result final) :
    ReadGroup start taken consumed history result final := by
  unfold readGroup at h
  rcases yields_bind_iff.mp h with ⟨fault, hend, rfl⟩ | ⟨front, back, ended, middle, rfl, hend, h⟩
  · rcases atEnd_spec hreached hend with ⟨hok, _⟩ | ⟨_, _, _, hstopped, htrouble⟩
    · cases hok
    · exact .failed hstopped (Group.first?_of_length_lt (by decide)) (.inl htrouble)
  rcases atEnd_spec hreached hend with ⟨hok, hmiddle, hlast⟩ | ⟨_, hfault, _⟩
  case inr => cases hfault
  obtain rfl := Except.ok.inj hok
  split at h
  · next hempty =>
      obtain ⟨rfl, rfl, rfl⟩ := yields_pure_iff.mp h
      have hnil : final.buffer = [] := List.isEmpty_iff.mp hempty
      rw [List.append_nil]
      exact .finished hmiddle (hlast hnil) hnil
  · next hsome =>
      have hbuffer : middle.buffer ≠ [] := fun hnil => hsome (by rw [hnil]; rfl)
      exact ReadGroup.after (readBegun_spec hmiddle hbuffer h)

/-! ### Passing over the rest -/

/-- Passing over the rest of the answer leaves the last frame as the one taken last. -/
theorem drainFrom_spec {fuel : Nat} {result : Except Fault Unit}
    (hreached : Reached start taken consumed reader) (hfuel : reader.stream.arrivals.length < fuel)
    (h : Yields (drainFrom fuel) reader history result final) :
    ∃ more, (result = .ok () ∧ final.ended = true ∧ final.buffer = [] ∧
          Reached start (taken + arrivalCount history) (consumed ++ more) final) ∨
        ∃ fault, result = .error fault ∧
          Stopped start (taken + arrivalCount history) consumed more ∧ Trouble start history := by
  induction fuel generalizing reader taken consumed history with
  | zero => exact absurd hfuel (Nat.not_lt_zero _)
  | succ fuel ih =>
      rw [drainFrom, yields_modify_bind_iff] at h
      have hpassed : Reached start taken (consumed ++ reader.buffer)
          { reader with offset := reader.offset + reader.buffer.length, buffer := [] } :=
        ⟨hreached.arrivals_eq, by rw [List.append_nil]; exact hreached.payload_eq,
          by rw [List.length_append, hreached.offset_eq], hreached.flowing, hreached.closed⟩
      rcases yields_bind_iff.mp h with ⟨fault, hnext, rfl⟩ | ⟨front, back, more, middle, rfl, hnext, h⟩
      · cases nextFrame_spec hpassed hnext with
        | failed _ hstopped htrouble =>
            rw [Stopped, List.append_nil] at hstopped
            exact ⟨_, .inr ⟨fault, rfl, hstopped, htrouble⟩⟩
      · cases nextFrame_spec hpassed hnext with
        | ended hended hfront =>
            obtain ⟨rfl, rfl, rfl⟩ := yields_pure_iff.mp h
            subst hfront
            exact ⟨_, .inl ⟨rfl, hended, rfl, hpassed⟩⟩
        | frame hcount hmiddle hfewer =>
            rw [if_pos rfl] at h
            have hless : middle.stream.arrivals.length < fuel :=
              Nat.lt_of_lt_of_le hfewer (Nat.lt_succ_iff.mp hfuel)
            obtain ⟨more, ⟨hok, hended, hnil, hfinal⟩ | ⟨fault, hfault, hstopped, htrouble⟩⟩ :=
              ih hmiddle hless h
            · refine ⟨reader.buffer ++ more, .inl ⟨hok, hended, hnil, ?_⟩⟩
              rwa [arrivalCount_append, hcount, ← Nat.add_assoc, ← List.append_assoc]
            · refine ⟨reader.buffer ++ more, .inr ⟨fault, hfault, ?_, htrouble.append_right⟩⟩
              rwa [arrivalCount_append, hcount, ← Nat.add_assoc, Stopped, ← List.append_assoc]

theorem drain_spec {result : Except Fault Unit} (hreached : Reached start taken consumed reader)
    (h : Yields drain reader history result final) :
    ∃ more, (result = .ok () ∧ final.ended = true ∧ final.buffer = [] ∧
          Reached start (taken + arrivalCount history) (consumed ++ more) final) ∨
        ∃ fault, result = .error fault ∧
          Stopped start (taken + arrivalCount history) consumed more ∧ Trouble start history := by
  unfold drain at h
  rw [yields_get_bind_iff] at h
  exact drainFrom_spec hreached (Nat.lt_succ_self _) h

end RecordGateway.FrameReader
