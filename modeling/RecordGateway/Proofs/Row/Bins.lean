import Mathlib.Data.List.Sort
import RecordGateway.Record

/-!
The bins of a record that is read one value at a time. Each name stands once, in the order of the names
(`ordered_pushInto`), and holds the values that came under it, in the order in which they came
(`get?_foldl_pushBin`): a single value as it is, several as a list.
-/

namespace RecordGateway

namespace Value

/-- The value is not itself a list of results. -/
def IsSingle (value : Value) : Prop :=
  ∀ items, value ≠ .list items

/-- What a bin holds after some values have come under its name. -/
def gathered : List Value → Option Value
  | [] => none
  | [value] => some value
  | values => some (.list values)

theorem gathered_concat {values : List Value} {value : Value}
    (hsingle : ∀ value ∈ values, value.IsSingle) :
    gathered (values ++ [value]) =
      some (match gathered values with
        | none => value
        | some held => held.collect value) := by
  match values with
  | [] => rfl
  | [first] =>
      cases first with
      | list items => exact absurd rfl (hsingle _ (.head _) items)
      | _ => rfl
  | first :: second :: rest => rfl

end Value

namespace Record

variable {name other : String} {value : Value} {bins others : List (String × Value)} {record : Record}

/-- The bins come in the order of their names, each name once. -/
def Ordered (bins : List (String × Value)) : Prop :=
  bins.Pairwise fun one other => one.1 < other.1

theorem lookup_eq_none_of_lt (hless : ∀ bin ∈ bins, name < bin.1) : bins.lookup name = none := by
  rw [List.lookup_eq_none_iff]
  intro bin hmem
  rw [bne_iff_ne]
  intro hname
  exact String.lt_irrefl _ (hname ▸ hless bin hmem)

theorem Ordered.mem_iff (hordered : Ordered bins) :
    (name, value) ∈ bins ↔ bins.lookup name = some value := by
  induction bins with
  | nil => simp
  | cons first rest ih =>
      obtain ⟨label, held⟩ := first
      obtain ⟨hless, hrest⟩ := List.pairwise_cons.mp hordered
      rw [List.mem_cons, Prod.mk.injEq, ih hrest, List.lookup_cons]
      by_cases hname : name = label
      · subst hname
        rw [lookup_eq_none_of_lt hless, beq_self_eq_true]
        simp [eq_comm]
      · rw [beq_false_of_ne hname]
        simp [hname]

/-- What stands under each name says what the bins are. -/
theorem Ordered.eq_of_lookup_eq (hbins : Ordered bins) (hothers : Ordered others)
    (hsame : ∀ name, bins.lookup name = others.lookup name) : bins = others := by
  have hirrefl : Std.Irrefl fun one other : String × Value => one.1 < other.1 :=
    ⟨fun bin => String.lt_irrefl bin.1⟩
  have hantisymm : Std.Antisymm fun one other : String × Value => one.1 < other.1 :=
    ⟨fun bin other h h' => absurd (String.lt_trans h h') (String.lt_irrefl bin.1)⟩
  refine List.Pairwise.eq_of_mem_iff hbins hothers fun bin => ?_
  rw [hbins.mem_iff, hothers.mem_iff, hsame]

theorem forall_mem_pushInto {P : String → Prop} (hname : P name) (hbins : ∀ bin ∈ bins, P bin.1) :
    ∀ bin ∈ pushInto name value bins, P bin.1 := by
  induction bins with
  | nil =>
      rw [pushInto, List.forall_mem_singleton]
      exact hname
  | cons first rest ih =>
      obtain ⟨label, held⟩ := first
      obtain ⟨hlabel, hrest⟩ := List.forall_mem_cons.mp hbins
      rw [pushInto]
      split
      · rw [List.forall_mem_cons]
        exact ⟨hlabel, hrest⟩
      · split
        · rw [List.forall_mem_cons]
          exact ⟨hname, hbins⟩
        · rw [List.forall_mem_cons]
          exact ⟨hlabel, ih hrest⟩

theorem ordered_pushInto (hordered : Ordered bins) : Ordered (pushInto name value bins) := by
  induction bins with
  | nil => exact List.pairwise_singleton _ _
  | cons first rest ih =>
      obtain ⟨label, held⟩ := first
      obtain ⟨hless, hrest⟩ := List.pairwise_cons.mp hordered
      rw [pushInto]
      split
      · exact List.pairwise_cons.mpr ⟨hless, hrest⟩
      · next hother =>
          split
          · next hbefore =>
              refine List.pairwise_cons.mpr ⟨?_, hordered⟩
              rw [List.forall_mem_cons]
              exact ⟨hbefore, fun bin hmem => String.lt_trans hbefore (hless bin hmem)⟩
          · next hafter =>
              have hlabel : label < name :=
                Std.lt_of_le_of_ne (String.not_lt.mp hafter) (Ne.symm hother)
              exact List.pairwise_cons.mpr ⟨forall_mem_pushInto hlabel hless, ih hrest⟩

/-- A value joins what its bin holds. -/
theorem lookup_pushInto (hordered : Ordered bins) :
    (pushInto name value bins).lookup name =
      some (match bins.lookup name with
        | none => value
        | some held => held.collect value) := by
  induction bins with
  | nil => rw [pushInto, List.lookup_cons_self, List.lookup_nil]
  | cons first rest ih =>
      obtain ⟨label, held⟩ := first
      obtain ⟨hless, hrest⟩ := List.pairwise_cons.mp hordered
      rw [pushInto]
      split
      · next hsame =>
          obtain rfl := hsame
          rw [List.lookup_cons_self, List.lookup_cons_self]
      · next hother =>
          have hskip : ∀ {rest : List (String × Value)} {held : Value},
              ((label, held) :: rest).lookup name = rest.lookup name := by
            intro rest held
            rw [List.lookup_cons, beq_false_of_ne hother]
          split
          · next hbefore =>
              have hnone : rest.lookup name = none :=
                lookup_eq_none_of_lt fun bin hmem => String.lt_trans hbefore (hless bin hmem)
              rw [List.lookup_cons_self, hskip, hnone]
          · rw [hskip, hskip, ih hrest]

/-- The other bins stay as they are. -/
theorem lookup_pushInto_of_ne (hother : other ≠ name) :
    (pushInto name value bins).lookup other = bins.lookup other := by
  have hskip : ∀ {rest : List (String × Value)} {held : Value},
      ((name, held) :: rest).lookup other = rest.lookup other := by
    intro rest held
    rw [List.lookup_cons, beq_false_of_ne hother]
  induction bins with
  | nil => exact hskip
  | cons first rest ih =>
      obtain ⟨label, held⟩ := first
      rw [pushInto]
      split
      · next hsame =>
          obtain rfl := hsame
          rw [hskip, hskip]
      · split
        · exact hskip
        · rw [List.lookup_cons, List.lookup_cons, ih]

/-- The record holds these values under their names and nothing else. -/
structure Holds (record : Record) (generation expiration : UInt32) (ops : List (String × Value)) :
    Prop where
  generation_eq : record.generation = generation
  expiration_eq : record.expiration = expiration
  ordered : Ordered record.bins
  get?_eq : ∀ name, record.get? name =
    Value.gathered ((ops.filter fun op => op.1 == name).map Prod.snd)

theorem Holds.pushBin {generation expiration : UInt32} {ops : List (String × Value)}
    (h : record.Holds generation expiration ops) (hsingle : ∀ op ∈ ops, op.2.IsSingle)
    (op : String × Value) : (record.pushBin op.1 op.2).Holds generation expiration (ops ++ [op]) where
  generation_eq := h.generation_eq
  expiration_eq := h.expiration_eq
  ordered := ordered_pushInto h.ordered
  get?_eq name := by
    rw [List.filter_append, List.map_append]
    by_cases hname : op.1 = name
    · subst hname
      have hvalues : ∀ value ∈ (ops.filter fun other => other.1 == op.1).map Prod.snd,
          value.IsSingle := by
        intro value hmem
        obtain ⟨other, hother, rfl⟩ := List.mem_map.mp hmem
        exact hsingle other (List.mem_filter.mp hother).1
      have hlast : [op].filter (fun other => other.1 == op.1) = [op] :=
        List.filter_cons_of_pos (beq_self_eq_true op.1)
      rw [hlast, List.map_singleton, Value.gathered_concat hvalues, ← h.get?_eq]
      exact lookup_pushInto h.ordered
    · have hnone : [op].filter (fun other => other.1 == name) = [] :=
        List.filter_cons_of_neg (by simp [hname])
      rw [hnone, List.map_nil, List.append_nil, ← h.get?_eq]
      exact lookup_pushInto_of_ne (Ne.symm hname)

/-- The induction is on the values that are still to come. -/
theorem holds_foldl_pushBin {generation expiration : UInt32} {ops : List (String × Value)}
    (hsingle : ∀ op ∈ ops, op.2.IsSingle) :
    (ops.foldl (fun record op => record.pushBin op.1 op.2) { generation, expiration } :
      Record).Holds generation expiration ops := by
  have hall : ∀ (later done : List (String × Value)) (record : Record),
      (∀ op ∈ done ++ later, op.2.IsSingle) → record.Holds generation expiration done →
      (later.foldl (fun record op => record.pushBin op.1 op.2) record).Holds generation expiration
        (done ++ later) := by
    intro later
    induction later with
    | nil =>
        intro done record _ hdone
        rwa [List.append_nil]
    | cons op later ih =>
        intro done record hsingle hdone
        have hbefore : ∀ other ∈ done, other.2.IsSingle := fun other hmem =>
          hsingle other (List.mem_append_left _ hmem)
        rw [List.append_cons] at hsingle ⊢
        exact ih (done ++ [op]) _ hsingle (hdone.pushBin hbefore op)
  exact hall ops [] _ hsingle ⟨rfl, rfl, List.Pairwise.nil, fun _ => rfl⟩

end Record
end RecordGateway
