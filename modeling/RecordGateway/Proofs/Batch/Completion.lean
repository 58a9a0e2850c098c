import RecordGateway.Proofs.Batch.Reassembly

/-!
When the answer to a batch counts as complete. Reading succeeds in two places: where no group is left, and
behind the row after the last, when the frames up to the last one have been passed over. In both the last
frame has been taken, everything before it without a failure, and nothing after it (`readGroups_closed`).
So an answer that breaks off anywhere, also behind the row after the last, is a fault
(`run_succeeds_only_at_last_frame`).
-/

namespace RecordGateway.Batch.Reassembly

open RecordGateway.Flow FrameReader Row

variable {plan : Plan} {start : List Arrival} {taken : Nat} {consumed : Bytes}
  {state final : Reassembly} {history : History}

/-- Where reading succeeds, the last frame has been taken. The induction is on the fuel. -/
theorem readGroups_closed {fuel : Nat} (hreached : Reached start taken consumed state.reader)
    (hfuel : (payload start).length < consumed.length + fuel)
    (h : Yields (readGroups plan fuel) state history (.ok ()) final) :
    ∃ front, Closed front ∧ start = front ++ final.reader.stream.arrivals := by
  induction fuel generalizing state taken consumed history with
  | zero => exact absurd hfuel (Nat.not_lt.mpr hreached.length_le)
  | succ fuel ih =>
      rw [readGroups] at h
      rcases yields_bind_iff.mp h with ⟨_, _, hfault⟩ | ⟨front, back, found, next, rfl, hread, hrest⟩
      · cases hfault
      obtain ⟨reader, hgroup, rfl⟩ := yields_reading_iff.mp hread
      cases readGroup_spec hreached hgroup with
      | finished hfinal hended hnil =>
          obtain ⟨rfl, -, rfl⟩ := yields_pure_iff.mp hrest
          exact ⟨_, hfinal.closed hended, hfinal.split_eq⟩
      | @group body wire _ hfinal hwire =>
          rw [yields_get_bind_iff] at hrest
          dsimp only at hrest
          rw [yields_modify_bind_iff] at hrest
          split at hrest
          · obtain ⟨-, hfault, -⟩ := yields_throw_iff.mp hrest
            cases hfault
          · obtain ⟨drained, hdrain, rfl⟩ := yields_reading_iff.mp hrest
            obtain ⟨more, ⟨-, hended, -, hlast⟩ | ⟨_, hfault, _⟩⟩ := drain_spec hfinal hdrain
            · exact ⟨_, hlast.closed hended, hlast.split_eq⟩
            · cases hfault
          · exact @ih _ _ (Reassembly.mk reader _) _ hfinal (lt_fuel_after_group hwire hfuel) hrest

theorem run_closed {tally : Tally} {stream : FrameStream} {limits : Limits}
    {reporter : Fault.Reporter}
    (h : Yields (run plan) ⟨{ stream, limits, reporter }, tally⟩ history (.ok ()) final) :
    ∃ front, Closed front ∧ stream.arrivals = front ++ final.reader.stream.arrivals := by
  rw [run, yields_get_bind_iff] at h
  rcases yields_bind_iff.mp h with ⟨_, _, hfault⟩ | ⟨_, _, _, middle, -, hread, hfinish⟩
  · cases hfault
  obtain ⟨-, -, rfl⟩ := yields_modify_iff.mp hfinish
  have hclosed := readGroups_closed (reached_beginning stream limits reporter)
    (length_payload_lt_fuel { stream, limits, reporter }) hread
  exact hclosed

/-- Nothing but trouble keeps a whole answer in which every row has its slot from being read. -/
theorem run_eq_ok {tally : Tally} {stream : FrameStream} {limits : Limits}
    {reporter : Fault.Reporter} {result : Except Fault Unit}
    (h : Yields (run plan) ⟨{ stream, limits, reporter }, tally⟩ history result final)
    (hprompt : ∀ event ∈ history, event.Prompt) (hlast : reachesLast stream.arrivals = true)
    (hsettles : Settles plan tally (payload stream.arrivals)) : result = .ok () := by
  rcases result with fault | ⟨⟨⟩⟩
  · rcases (run_spec h).2.2 fault rfl with (hshort | ⟨event, hmem, hlate⟩) | hnot
    · rw [hlast] at hshort
      cases hshort
    · exact absurd (hprompt event hmem) hlate
    · exact absurd hsettles hnot
  · rfl

/-- Reading the answer to a batch succeeds only if all frames up to the last one have come without a
failure, and then it has taken none after it. On every other answer it fails. It does succeed on a whole
answer in which every row has its slot, if nothing is cut off. -/
theorem run_succeeds_only_at_last_frame (plan : Plan) (tally : Tally) (stream : FrameStream)
    (limits : Limits) (reporter : Fault.Reporter) (surroundings : Surroundings) (past : History) :
    let ran := (((run plan).run.run ⟨{ stream, limits, reporter }, tally⟩).runIn surroundings past).1
    (ran.1 = .ok () →
      ∃ front, Closed front ∧ stream.arrivals = front ++ ran.2.reader.stream.arrivals) ∧
    ((¬ ∃ front back, Closed front ∧ stream.arrivals = front ++ back) →
      ∃ fault, ran.1 = .error fault) ∧
    (surroundings.Prompt → (∃ front back, Closed front ∧ stream.arrivals = front ++ back) →
      Settles plan tally (payload stream.arrivals) → ran.1 = .ok ()) := by
  intro ran
  have honly : ran.1 = .ok () →
      ∃ front, Closed front ∧ stream.arrivals = front ++ ran.2.reader.stream.arrivals := by
    intro hok
    obtain ⟨history, hran⟩ :=
      yields_runIn surroundings (run plan) ⟨{ stream, limits, reporter }, tally⟩ past
    rw [hok] at hran
    exact run_closed hran
  refine ⟨honly, fun hbroken => ?_, fun hprompt hlast hsettles => ?_⟩
  · rcases houtcome : ran.1 with fault | ⟨⟨⟩⟩
    · exact ⟨fault, rfl⟩
    · obtain ⟨front, hfront, hsplit⟩ := honly houtcome
      exact absurd ⟨front, _, hfront, hsplit⟩ hbroken
  · obtain ⟨history, hevents, hran⟩ := yields_runIn_prompt surroundings hprompt (run plan)
      ⟨{ stream, limits, reporter }, tally⟩ past
    exact run_eq_ok hran hevents (reachesLast_iff.mpr hlast) hsettles

/-- The row after the last comes with a frame that announces more, and the next frame refuses the call: such
an answer is not complete. -/
theorem refused_behind_last_row_fails :
    let arrivals : List Arrival :=
      [⟨some 0, .ok { payload := Group.plain (bareRow 0 0 0 1), hasNext := true }⟩,
        ⟨some 0, .ok { status := 4 }⟩]
    let ran := (((run ⟨[]⟩).run.run ⟨{ stream := { arrivals } }, { slots := [] }⟩).runIn
      (fun _ => calmAnswer) []).1
    reachesLast arrivals = false ∧ ∃ fault, ran.1 = .error fault := by
  intro arrivals ran
  have hshort : reachesLast arrivals = false := rfl
  obtain ⟨-, hfails, -⟩ := run_succeeds_only_at_last_frame ⟨[]⟩ { slots := [] } { arrivals } {} {}
    (fun _ => calmAnswer) []
  refine ⟨hshort, hfails fun hclosed => ?_⟩
  rw [reachesLast_iff.mpr hclosed] at hshort
  cases hshort

end RecordGateway.Batch.Reassembly
