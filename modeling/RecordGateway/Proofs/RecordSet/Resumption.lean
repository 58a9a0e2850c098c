import RecordGateway.Proofs.RecordSet.Course
import RecordGateway.Proofs.RecordSet.Progress

/-!
Going on where a run stopped. The range of a filter that a tracker gives out is read off its statuses, which
are those of consecutive partitions whatever the rounds have brought (`Arises.wellFormed`); so the filter is
always accepted, and the run that begins with it has the same statuses (`goesOn_of_statuses`). A round keeps
what every row keeps (`Round.keeps_noted`), hence the progress with which a set finishes is again one from
which a run may go on (`Course.arises`).
-/

namespace RecordGateway

/-- A filter of a round without its flags. -/
def Envelope.PartitionFilter.withoutRetry (filter : PartitionFilter) : PartitionFilter :=
  { filter with
    statuses := filter.statuses.map fun status => { status with retry := false }
    retry := false }

namespace RecordSet

open RecordGateway.Flow
open RecordGateway.Partition (Tracker Filter ofDigest)

variable {tracker : Tracker} {producer : Producer} {history : History} {round : Played}
  {rounds : List Played} {retries : Nat} {filter : Filter}

/-! ### What rounds arrive at -/

theorem Arises.foldl_note (h : Arises tracker) (rows : List RoundRow) :
    Arises (rows.foldl Round.note tracker) := by
  induction rows generalizing tracker with
  | nil => exact h
  | cons row rows ih => exact ih (.noted tracker row h)

namespace Round

variable {set : Nat} {holds : Tracker → Prop}

/-- Whatever every row keeps is kept by a round, also by one that fails or that nobody reads. -/
theorem keeps_noted (hnote : ∀ tracker row, holds tracker → holds (note tracker row)) :
    Keeps (fun state : Round => holds state.tracker) (fun _ => True) (run set) := by
  have hreading : Keeps (fun state : Round => holds state.tracker) (fun _ => True)
      (reading FrameReader.readGroup) := by
    intro state history result final hstate h
    obtain ⟨reader, -, rfl⟩ := yields_reading_iff.mp h
    exact ⟨hstate, fun _ _ => trivial⟩
  have hdeliver : ∀ rows, Keeps (fun state : Round => holds state.tracker) (fun _ => True)
      (deliver set rows) := by
    intro rows
    induction rows with
    | nil => exact keeps_pure _
    | cons row rows ih =>
        cases row with
        | partitionDone id code =>
            exact keeps_bind (keeps_modify fun state hstate => hnote _ (.partitionDone id code) hstate)
              fun _ => ih
        | data key record =>
            refine keeps_bind (keeps_modify fun state hstate => hnote _ (.data key record) hstate) fun _ => ?_
            refine keeps_bind (keeps_query _) fun isRead => ?_
            split
            · exact keeps_pure _
            · refine keeps_get_bind fun state _ => ?_
              split
              · exact keeps_pure _
              · exact ih
  exact keeps_run_of_steps hreading hdeliver (failsAs_readRow.mono fun _ _ => trivial)

end Round

theorem Plays.arises (h : Plays producer history round) (hbefore : Arises round.before) :
    Arises round.after := by
  cases h with
  | refused => exact .started _ hbefore
  | answered _ hrun =>
      have hkeeps := @Round.keeps_noted producer.set Arises fun tracker row => .noted tracker row
      exact (hkeeps _ _ _ _ (.started _ hbefore) hrun).1

/-- A filter with which a run may go on where an earlier one stopped. -/
def IsResume (filter : Filter) : Prop :=
  ∃ last, Arises last ∧ filter = last.resumeFilter

/-- A verdict that lets a set finish, or go on, with progress from which a run may go on. -/
structure Verdict.Sound (verdict : Verdict) : Prop where
  ends : ∀ filter, verdict = .ends (some (.finished filter)) → IsResume filter
  goesOn : ∀ next, verdict = .goesOn next → Arises next

theorem Verdict.sound_ends {item : Option Item}
    (h : ∀ filter, item = some (.finished filter) → IsResume filter) : (Verdict.ends item).Sound := by
  constructor
  · rintro filter ⟨⟩
    exact h filter rfl
  · rintro _ ⟨⟩

theorem Verdict.sound_finished (h : Arises tracker) :
    (Verdict.ends (some (.finished tracker.resumeFilter))).Sound := by
  refine sound_ends ?_
  rintro _ ⟨⟩
  exact ⟨tracker, h, rfl⟩

theorem Verdict.sound_of (h : Arises tracker) : (Verdict.of tracker).Sound := by
  rw [Verdict.of]
  split
  · exact sound_finished h
  · constructor
    · rintro _ ⟨⟩
    · rintro _ ⟨⟩
      exact h

theorem Played.sound_verdict (h : Arises round.after) : round.verdict.Sound := by
  rw [Played.verdict]
  split
  · refine Verdict.sound_ends ?_
    rintro _ ⟨⟩
  · exact Verdict.sound_finished h
  · exact Verdict.sound_of (.finished _ h)
  · split
    · exact Verdict.sound_of (.failed _ h)
    · refine Verdict.sound_ends ?_
      rintro _ ⟨⟩

/-- The filter with which a set finishes is that of progress from which a run may go on. The induction is on
the rounds; the progress before each of them carries it. -/
theorem Course.arises {item : Option Item} (h : Course producer retries tracker history rounds item)
    (htracker : Arises tracker) (hitem : item = some (.finished filter)) : IsResume filter := by
  induction h with
  | cancelled => cases hitem
  | exhausted => cases hitem
  | last hplays hverdict =>
      obtain rfl := hitem
      exact (Played.sound_verdict (hplays.arises htracker)).ends _ hverdict
  | again hplays hverdict _ _ ih =>
      exact ih ((Played.sound_verdict (hplays.arises htracker)).goesOn _ hverdict) hitem

/-! ### Going on -/

/-- A run that goes on where another stopped, with a limit of its own: the statuses are the same, and so is
what the next round asks for, except that it has not been asked for before. -/
structure GoesOn (tracker : Tracker) (maxRecords : Nat) (resumed : Tracker) : Prop where
  maxRecords_eq : resumed.maxRecords = maxRecords
  delivered_eq : resumed.delivered = 0
  iteration_eq : resumed.iteration = 0
  statuses_eq : resumed.statuses = tracker.statuses
  asked_eq : resumed.roundFilter.withoutRetry = tracker.roundFilter.withoutRetry
  started_eq : resumed.startRound.statuses = tracker.startRound.statuses

theorem withoutRetry_roundFilter (tracker : Tracker) :
    tracker.roundFilter.withoutRetry = { tracker with iteration := 0 }.roundFilter := by
  simp [Envelope.PartitionFilter.withoutRetry, Tracker.roundFilter, Tracker.remaining, Function.comp_def]

theorem goesOn_of_statuses (tracker : Tracker) (maxRecords : Nat) :
    GoesOn tracker maxRecords { statuses := tracker.statuses, maxRecords } := by
  refine ⟨rfl, rfl, rfl, rfl, ?_, rfl⟩
  rw [withoutRetry_roundFilter, withoutRetry_roundFilter]
  rfl

theorem isDone_resumeFilter (tracker : Tracker) :
    tracker.resumeFilter.isDone = true ↔ tracker.outstanding = 0 := by
  rw [Tracker.outstanding, List.length_eq_zero_iff, Tracker.remaining, List.filter_eq_nil_iff]
  simp [Tracker.resumeFilter, Filter.isDone]

theorem ofDigest_lt (digest : Digest) : ofDigest digest < Partition.count :=
  Nat.mod_lt _ (by decide)

/-- A run may begin after any digest. -/
theorem ofFilter_after (digest : Digest) (maxRecords : Nat) :
    Tracker.ofFilter (.after digest) maxRecords =
      .ok { statuses := [{ id := ofDigest digest, digest := some digest }], maxRecords } := by
  have hvalid : (Filter.after digest).isValid = true := by
    have hrange := ofDigest_lt digest
    rw [Filter.isValid, decide_eq_true_iff]
    exact ⟨Nat.one_ne_zero, hrange, hrange⟩
  rw [Tracker.ofFilter, if_pos hvalid]
  rfl

/-- Wherever a run stops, after whatever rounds and however often it has gone on before, it can go on: its
filter is accepted with any limit, the progress is the same, and the next round asks for the same partitions
after the same digests. Nothing is left to do exactly if the filter says so. The filter with which a set
finishes is one of these, and a run may begin after any digest. -/
theorem resumption_lossless (tracker : Tracker) (h : Arises tracker) :
    (∀ maxRecords, ∃ resumed, Tracker.ofFilter tracker.resumeFilter maxRecords = .ok resumed ∧
      Arises resumed ∧ GoesOn tracker maxRecords resumed) ∧
    (tracker.resumeFilter.isDone = true ↔ tracker.outstanding = 0) ∧
    (∀ producer retries history filter,
      (Producer.rounds producer retries tracker).Ends history (some (.finished filter)) →
        IsResume filter) ∧
    ∀ digest maxRecords, ∃ begun, Tracker.ofFilter (.after digest) maxRecords = .ok begun ∧
      Arises begun ∧ (begun.roundFilter.statuses.map fun asked => (asked.id.toNat, asked.digest)) =
        [(ofDigest digest, some digest.bytes)] := by
  refine ⟨fun maxRecords => ?_, isDone_resumeFilter tracker, ?_, fun digest maxRecords => ?_⟩
  · have hmade := ofFilter_resumeFilter h.wellFormed maxRecords
    exact ⟨_, hmade, .resumed tracker maxRecords _ h hmade, goesOn_of_statuses tracker maxRecords⟩
  · intro producer retries history filter hends
    obtain ⟨rounds, hcourse⟩ := rounds_course retries tracker history _ hends
    exact hcourse.arises h rfl
  · have hmade := ofFilter_after digest maxRecords
    have hbegun : Arises { statuses := [{ id := ofDigest digest, digest := some digest }], maxRecords } :=
      .fresh (.after digest) maxRecords _ (.after digest) hmade
    exact ⟨_, hmade, hbegun, asked_roundFilter hbegun.wellFormed⟩

/-- Of the partitions 10 to 12 a round leaves the middle one, after a record, and a run that goes on from there
stops after another record. The run that goes on from that asks for this partition alone, after the later
of the two. -/
theorem refused_partition_resumed :
    let origin : Tracker := { statuses := Tracker.freshStatuses 10 3 none, maxRecords := 0 }
    let refused := [recordOfEleven 1, .partitionDone 11 .partitionUnavailable]
    let stopped := (refused.foldl Round.note origin.startRound).finishRound
    let resumed : Tracker := { statuses := stopped.statuses, maxRecords := 1 }
    let later := Round.note resumed.startRound (recordOfEleven 2)
    Arises later ∧ later.resumeFilter.isDone = false ∧
      ∃ last, Tracker.ofFilter later.resumeFilter 7 = .ok last ∧
        last.statuses.map (·.done) = [true, false, true] ∧
        (last.roundFilter.withoutRetry.statuses.map fun asked => (asked.id.toNat, asked.digest)) =
          [(11, some (11 :: List.replicate 18 0 ++ [2]))] := by
  intro origin refused stopped resumed later
  have horigin : Arises origin := .fresh (.range 10 3) 0 origin (.range 10 3) rfl
  have hstopped : Arises stopped := .finished _ ((Arises.started _ horigin).foldl_note refused)
  have hlater : Arises later := .noted _ _ (.started _ (.resumed stopped 1 _ hstopped rfl))
  obtain ⟨hresumes, hdone, -⟩ := resumption_lossless later hlater
  obtain ⟨last, hmade, -, hgoesOn⟩ := hresumes 7
  refine ⟨hlater, ?_, last, hmade, ?_, ?_⟩
  · rw [Bool.eq_false_iff, Ne, hdone]
    decide
  · rw [hgoesOn.statuses_eq]
    rfl
  · rw [hgoesOn.asked_eq]
    rfl

end RecordSet
end RecordGateway
