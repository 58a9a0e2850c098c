import RecordGateway.Proofs.Row.Acceptance
import RecordGateway.Proofs.Row.Layout

/-!
Several bins under one name. A record is read bin by bin, and what a bin holds already decides how the next
value joins it: a list takes it in, anything else becomes a list with it. That keeps every value, each once
and in order, because no value that is read is a list itself (`isSingle_of_ofParticle`); so every list in a
record has come from several bins under one name (`readRecord_gathers`).
-/

namespace RecordGateway

/-- The values that come under a name, in the order of their bins. -/
def valuesUnder (name : String) (bins : List (String × Value)) : List Value :=
  (bins.filter fun bin => bin.1 == name).map Prod.snd

theorem valuesUnder_eq_nil_iff {name : String} {bins : List (String × Value)} :
    valuesUnder name bins = [] ↔ name ∉ bins.map Prod.fst := by
  rw [valuesUnder, List.map_eq_nil_iff, List.filter_eq_nil_iff, List.mem_map, not_exists]
  apply forall_congr'
  intro bin
  rw [beq_iff_eq, not_and]

/-- A record has one bin for each name that came, in the order of the names, and in it what came under the
name: a value that came alone as it is, several as the list of them all in the order in which they came. None
of them is itself such a list. -/
structure Record.Gathers (record : Record) (bins : List (String × Value)) : Prop where
  ordered : Record.Ordered record.bins
  mem_names_iff : ∀ name, name ∈ record.bins.map Prod.fst ↔ name ∈ bins.map Prod.fst
  alone : ∀ name value, valuesUnder name bins = [value] → record.get? name = some value
  together : ∀ name, 1 < (valuesUnder name bins).length →
    record.get? name = some (.list (valuesUnder name bins))
  flat : ∀ bin ∈ bins, bin.2.IsSingle

theorem Record.Holds.gathers {record : Record} {generation expiration : UInt32}
    {bins : List (String × Value)} (h : record.Holds generation expiration bins)
    (hflat : ∀ bin ∈ bins, bin.2.IsSingle) : record.Gathers bins where
  ordered := h.ordered
  mem_names_iff name := by
    have hget : record.bins.lookup name = Value.gathered (valuesUnder name bins) := h.get?_eq name
    have hnone : Value.gathered (valuesUnder name bins) = none ↔ valuesUnder name bins = [] := by
      rcases valuesUnder name bins with _ | ⟨value, _ | ⟨next, rest⟩⟩ <;> simp [Value.gathered]
    have hlookup : record.bins.lookup name = none ↔ name ∉ record.bins.map Prod.fst := by
      rw [List.lookup_eq_none_iff, List.mem_map, not_exists]
      apply forall_congr'
      intro bin
      rw [bne_iff_ne, not_and, ne_comm]
    rw [hget, hnone, valuesUnder_eq_nil_iff] at hlookup
    exact not_iff_not.mp hlookup.symm
  alone name value hvalue := by
    rw [h.get?_eq name]
    show Value.gathered (valuesUnder name bins) = some value
    rw [hvalue]
    rfl
  together name hseveral := by
    rw [h.get?_eq name]
    show Value.gathered (valuesUnder name bins) = some (.list (valuesUnder name bins))
    rcases hvalues : valuesUnder name bins with _ | ⟨value, _ | ⟨next, rest⟩⟩
    · simp [hvalues] at hseveral
    · simp [hvalues] at hseveral
    · rfl
  flat := hflat

namespace Value

variable {value : Value}

theorem isSingle_of_map {α : Type} {make : α → Value} {outcome : Except Fault α}
    (h : make <$> outcome = .ok value) (hmake : ∀ read, (make read).IsSingle) : value.IsSingle := by
  cases outcome with
  | error fault => cases h
  | ok read =>
      obtain rfl := Except.ok.inj h
      exact hmake read

/-- Nothing that is read is a list: collections stay as the server packs them. -/
theorem isSingle_of_ofParticle {type : UInt8} {bytes : Bytes} (h : ofParticle type bytes = .ok value) :
    value.IsSingle := by
  unfold ofParticle at h
  split at h
  · cases h
    exact fun _ => nofun
  · exact isSingle_of_map h fun _ => nofun
  · exact isSingle_of_map h fun _ => nofun
  · exact isSingle_of_map h fun _ => nofun
  · cases h
    exact fun _ => nofun
  · split at h
    · cases h
      exact fun _ => nofun
    · exact isSingle_of_map h fun _ => nofun
  · exact isSingle_of_map h fun _ => nofun
  · cases h
    exact fun _ => nofun

end Value

namespace Row

theorem isSingle_of_saysBin {contents : List Bytes} {bins : List (String × Value)}
    (h : List.Forall₂ SaysBin contents bins) : ∀ bin ∈ bins, bin.2.IsSingle := by
  induction h with
  | nil => exact List.forall_mem_nil _
  | cons hsays _ ih =>
      rw [List.forall_mem_cons]
      refine ⟨?_, ih⟩
      cases hsays with
      | mk _ hvalue => exact Value.isSingle_of_ofParticle hvalue

/-- Whatever bytes a record is read from are as many bins as the fixed part announces, and the record gathers
what these say. -/
theorem readRecord_gathers {header : Header} {cursor final : Cursor} {record : Record}
    (h : (readRecord header).run.run cursor = (.ok record, final)) :
    ∃ (blocks : List Block) (bins : List (String × Value)),
      blocks.length = header.opCount.toNat ∧ List.Forall₂ SaysBin (blocks.map Block.content) bins ∧
      cursor.Passes (blocks.flatMap Block.encode) final ∧ record.generation = header.generation ∧
      record.expiration = header.expiration ∧ record.Gathers bins := by
  obtain ⟨blocks, bins, hcount, hsays, hpasses, rfl⟩ := passes_of_readBinsInto h
  have hflat := isSingle_of_saysBin hsays
  have hholds : Record.Holds _ header.generation header.expiration bins :=
    Record.holds_foldl_pushBin hflat
  exact ⟨blocks, bins, hcount, hsays, hpasses, hholds.generation_eq, hholds.expiration_eq,
    hholds.gathers hflat⟩

/-- Two names that come in turn. -/
def interleavedBins : List BinImage :=
  [{ name := "x", value := .int 1, operation := 1, version := 0, short := by decide, fits := by decide },
    { name := "a", value := .bool 1, operation := 1, version := 0, short := by decide, fits := by decide },
    { name := "x", value := .null [], operation := 1, version := 0, short := by decide,
      fits := by decide },
    { name := "b", value := .int 5, operation := 1, version := 0, short := by decide, fits := by decide },
    { name := "a", value := .int 2, operation := 1, version := 0, short := by decide, fits := by decide },
    { name := "x", value := .int 3, operation := 1, version := 0, short := by decide, fits := by decide }]

/-- The fixed part of a row with these bins. -/
def interleavedHeader : Header where
  length := 22
  info1 := 0
  info2 := 0
  info3 := 0
  code := 0
  generation := 7
  expiration := 0
  index := 0
  fieldCount := 0
  opCount := 6

theorem interleaved_bins_gathered :
    ∃ (record : Record) (final : Cursor) (blocks : List Block) (bins : List (String × Value)),
      (readRecord interleavedHeader).run.run ⟨interleavedBins.flatMap BinImage.encode, 0⟩ =
        (.ok record, final) ∧
      record.get? "x" = some (.list [.int 1, .nil, .int 3]) ∧
      record.get? "a" = some (.list [.bool true, .int 2]) ∧ record.get? "b" = some (.int 5) ∧
      blocks.length = 6 ∧ List.Forall₂ SaysBin (blocks.map Block.content) bins ∧ record.Gathers bins := by
  have hread : (readRecord interleavedHeader).run.run _ = _ :=
    (takes_readBinsInto { generation := 7, expiration := 0 } interleavedBins).spells
  obtain ⟨blocks, bins, hcount, hsays, -, -, -, hgathers⟩ := readRecord_gathers hread
  exact ⟨_, _, blocks, bins, hread, rfl, rfl, rfl, hcount, hsays, hgathers⟩

end Row
end RecordGateway
