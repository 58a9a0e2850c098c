import RecordGateway.Proofs.RecordSet.Round

/-!
Where a round comes to its end. A round that does not fail has taken only frames that came without a failure
(`readGroups_ends`), and it is finished in two places: with the last frame, when no group is left, and at the
row after the last, wherever that row stands. In the second place it does not wait for the last frame, so
it does not see how the answer goes on: an answer that breaks off behind the row after the last finishes
the round all the same (`finished_before_refusal`).
-/

namespace RecordGateway.RecordSet.Round

open RecordGateway.Flow FrameReader Row

variable {set : Nat} {start : List Arrival} {taken : Nat} {consumed : Bytes} {state final : Round}
  {history : History} {roundEnd : RoundEnd}

/-- A round ends on the way through the answer, and it is finished with the last frame or at the row after
the last. The induction is on the fuel. -/
theorem readGroups_ends {fuel : Nat} (hreached : Reached start taken consumed state.reader)
    (hfuel : (payload start).length < consumed.length + fuel)
    (h : Yields (readGroups set fuel) state history (.ok roundEnd) final) :
    ∃ taken read, Reached start taken (consumed ++ read) final.reader ∧
      (roundEnd = .finished →
        final.reader.ended = true ∨ (harvest readRow read).ending = .ok true) := by
  induction fuel generalizing state taken consumed history with
  | zero => exact absurd hfuel (Nat.not_lt.mpr hreached.length_le)
  | succ fuel ih =>
      rw [readGroups] at h
      rcases yields_bind_iff.mp h with ⟨_, _, hfault⟩ | ⟨front, back, found, next, -, hread, hrest⟩
      · cases hfault
      obtain ⟨reader, hgroup, rfl⟩ := yields_reading_iff.mp hread
      cases readGroup_spec hreached hgroup with
      | finished hfinal hended hnil =>
          obtain ⟨-, -, rfl⟩ := yields_pure_iff.mp hrest
          refine ⟨taken + arrivalCount front, [], ?_, fun _ => .inl hended⟩
          rwa [List.append_nil]
      | @group body wire _ hfinal hwire =>
          rcases hrows : unfold readRow body.length { rest := body } with ⟨rows, ending⟩
          simp only [hrows] at hrest
          rcases yields_bind_iff.mp hrest with
            ⟨_, _, hfault⟩ | ⟨_, _, found, delivered, -, hdeliver, hlast⟩
          · cases hfault
          obtain ⟨hreader, _, hfound, hnot⟩ := deliver_ends hdeliver
          obtain rfl := Except.ok.inj hfound
          replace hfinal : Reached start (taken + arrivalCount front) (consumed ++ wire)
              delivered.reader := hreader ▸ hfinal
          cases found with
          | some early =>
              obtain ⟨-, hearly, rfl⟩ := yields_pure_iff.mp hlast
              obtain rfl := Except.ok.inj hearly
              exact ⟨_, wire, hfinal, fun hfinished => absurd (congrArg some hfinished) hnot⟩
          | none =>
              rcases ending with fault | ended
              · obtain ⟨-, hfault, -⟩ := yields_throw_iff.mp hlast
                cases hfault
              cases ended with
              | true =>
                  obtain ⟨-, -, rfl⟩ := yields_pure_iff.mp hlast
                  refine ⟨_, wire, hfinal, fun _ => .inr ?_⟩
                  have hone := hwire []
                  rw [List.append_nil] at hone
                  rw [harvest_of_end hone hrows (by simp)]
              | false =>
                  obtain ⟨taken', read, hend, hwhy⟩ :=
                    ih hfinal (lt_fuel_after_group hwire hfuel) hlast
                  rw [List.append_assoc] at hend
                  refine ⟨taken', wire ++ read, hend, fun hfinished => (hwhy hfinished).imp_right ?_⟩
                  rw [harvest_of_more (hwire read) hrows]
                  exact id

theorem run_ends {stream : FrameStream} {limits : Limits} {reporter : Fault.Reporter}
    {tracker : Partition.Tracker}
    (h : Yields (run set) ⟨{ stream, limits, reporter }, tracker⟩ history (.ok roundEnd) final) :
    ∃ taken read, Reached stream.arrivals taken read final.reader ∧
      (roundEnd = .finished →
        final.reader.ended = true ∨ (harvest readRow read).ending = .ok true) := by
  rw [run, yields_get_bind_iff] at h
  exact readGroups_ends (reached_beginning stream limits reporter)
    (length_payload_lt_fuel { stream, limits, reporter }) h

/-- A round that comes to an end has taken only frames that came without a failure. It is finished with
the last frame, or at the row after the last among the rows of these frames; so without such a row it is
finished only if the whole answer has come. -/
theorem run_finishes_at_last_frame_or_row (set : Nat) (stream : FrameStream) (limits : Limits)
    (reporter : Fault.Reporter) (tracker : Partition.Tracker) (surroundings : Surroundings)
    (past : History) :
    let ran :=
      (((run set).run.run ⟨{ stream, limits, reporter }, tracker⟩).runIn surroundings past).1
    (∀ roundEnd, ran.1 = .ok roundEnd →
      ∃ front, stream.arrivals = front ++ ran.2.reader.stream.arrivals ∧
        (Flowing front ∨ Closed front) ∧
        (roundEnd = .finished →
          Closed front ∨ (harvest readRow (payload front)).ending = .ok true)) ∧
    ((harvest readRow (payload stream.arrivals)).ending ≠ .ok true → ran.1 = .ok .finished →
      ∃ front, stream.arrivals = front ++ ran.2.reader.stream.arrivals ∧ Closed front) := by
  intro ran
  obtain ⟨history, hran⟩ :=
    yields_runIn surroundings (run set) ⟨{ stream, limits, reporter }, tracker⟩ past
  have hall : ∀ roundEnd, ran.1 = .ok roundEnd → ∃ taken read,
      Reached stream.arrivals taken read ran.2.reader ∧
        (roundEnd = .finished →
          ran.2.reader.ended = true ∨ (harvest readRow read).ending = .ok true) := by
    intro roundEnd hok
    rw [hok] at hran
    exact run_ends hran
  constructor
  · intro roundEnd hok
    obtain ⟨taken, read, hreached, hwhy⟩ := hall roundEnd hok
    refine ⟨stream.arrivals.take taken, hreached.split_eq, ?_, fun hfinished => ?_⟩
    · cases hended : ran.2.reader.ended with
      | false => exact .inl (hreached.flowing hended)
      | true => exact .inr (hreached.closed hended)
    · rcases hwhy hfinished with hended | hmark
      · exact .inl (hreached.closed hended)
      · -- The bytes behind the row after the last do not take it back.
        have hmore := (@harvest_append _ readRow read ran.2.reader.buffer).2 (by simp [hmark])
        refine .inr ?_
        rw [hreached.payload_eq, hmore.2, hmark]
  · intro hnot hok
    obtain ⟨taken, read, hreached, hwhy⟩ := hall .finished hok
    rcases hwhy rfl with hended | hmark
    · exact ⟨_, hreached.split_eq, hreached.closed hended⟩
    · obtain ⟨more, hmore⟩ := @Reached.rest_eq _ _ [] _ read hreached _ rfl
      have hlater := (@harvest_append _ readRow read (ran.2.reader.buffer ++ more)).2
        (by simp [hmark])
      rw [← hmore, hmark] at hlater
      exact absurd hlater.2 hnot

/-- The row after the last comes with a frame that announces more, and the next frame refuses the call. -/
def refusedBehindLastRow : List Arrival :=
  [⟨some 0, .ok { payload := Group.plain (bareRow 0 0 0 1), hasNext := true }⟩,
    ⟨some 0, .ok { status := 4 }⟩]

/-- Such a round is finished although its last frame never came, so that all its partitions are done; the
frame with a status of its own is still in the stream. -/
theorem finished_before_refusal :
    let tracker := { statuses := [{ id := 0 }], maxRecords := 0 : Partition.Tracker }.startRound
    let ran := (((run 0).run.run ⟨{ stream := { arrivals := refusedBehindLastRow } }, tracker⟩).runIn
      (fun _ => Flow.calmAnswer) []).1
    ran.1 = .ok .finished ∧ ran.2.tracker.finishRound.isComplete = true ∧
      reachesLast refusedBehindLastRow = false ∧
      ran.2.reader.stream.arrivals = [⟨some 0, .ok { status := 4 }⟩] := by
  refine ⟨rfl, rfl, rfl, rfl⟩

end RecordGateway.RecordSet.Round
