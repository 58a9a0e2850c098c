import Mathlib.Algebra.Order.Ring.Nat
import RecordGateway.Bytes.Zlib

/-!
How far compressed bytes expand. Every code takes a bit at least and stands for `maxRepeat` bytes at most.
So the bytes that are made, with `maxRepeat` more for each bit that is still to be read, never become more
than they were before (`Budget`), and what an envelope holds is bounded by the length of the envelope
(`length_inflate_le`).
-/

namespace RecordGateway.Deflate

variable {α β : Type} {made before : Nat}

/-- The greatest number of bytes that one code stands for. -/
def maxRepeat : Nat := 258

/-- The reader begins with a number of bytes made, and ends with a number that its result tells. It has made
no more than `maxRepeat` for each bit that it has taken. -/
def Budget (reader : BitReader α) (before : Nat) (after : α → Nat) : Prop :=
  ∀ bits value rest, reader.run bits = some (value, rest) →
    after value + maxRepeat * rest.length ≤ before + maxRepeat * bits.length

/-- The reader can give the value. -/
def Gives (reader : BitReader α) (value : α) : Prop :=
  ∃ bits rest, reader.run bits = some (value, rest)

theorem run_bind_eq_some_iff {reader : BitReader α} {f : α → BitReader β} {bits rest : List Bool}
    {result : β} :
    (reader >>= f).run bits = some (result, rest) ↔
      ∃ value middle, reader.run bits = some (value, middle) ∧
        (f value).run middle = some (result, rest) := by
  rw [StateT.run_bind, Option.bind_eq_bind, Option.bind_eq_some_iff]
  exact Prod.exists

theorem run_pure_eq_some_iff {value result : α} {bits rest : List Bool} :
    (pure value : BitReader α).run bits = some (result, rest) ↔ value = result ∧ bits = rest := by
  rw [StateT.run_pure, Option.pure_def, Option.some_inj, Prod.mk.injEq]

/-! ### What readers are put together of -/

theorem budget_pure {value : α} {after : α → Nat} (h : after value ≤ before) :
    Budget (pure value) before after := by
  intro bits result rest hrun
  obtain ⟨rfl, rfl⟩ := run_pure_eq_some_iff.mp hrun
  exact Nat.add_le_add_right h _

theorem budget_failure {after : α → Nat} : Budget (failure : BitReader α) before after := by
  intro bits result rest hrun
  cases hrun

theorem Budget.mono {reader : BitReader α} {wider : Nat} {after fewer : α → Nat}
    (h : Budget reader before after) (hbefore : before ≤ wider) (hafter : ∀ value, fewer value ≤ after value) :
    Budget reader wider fewer := by
  intro bits value rest hrun
  have hspent := h bits value rest hrun
  have hless := hafter value
  omega

theorem Budget.bind {reader : BitReader α} {f : α → BitReader β} {middle : α → Nat} {after : β → Nat}
    (hreader : Budget reader before middle)
    (hf : ∀ value, Gives reader value → Budget (f value) (middle value) after) :
    Budget (reader >>= f) before after := by
  intro bits result rest hrun
  obtain ⟨value, between, hfirst, hsecond⟩ := run_bind_eq_some_iff.mp hrun
  exact Nat.le_trans (hf value ⟨bits, between, hfirst⟩ _ _ _ hsecond) (hreader _ _ _ hfirst)

theorem budget_lift (option : Option α) : Budget (liftM option) made fun _ => made := by
  intro bits value rest hrun
  cases option with
  | none => cases hrun
  | some given =>
      obtain ⟨-, rfl⟩ := run_pure_eq_some_iff.mp hrun
      exact Nat.le_refl _

theorem budget_get_bind {f : List Bool → BitReader β} {after : β → Nat}
    (hf : ∀ bits, Budget (f bits) before after) : Budget (get >>= f) before after :=
  fun bits => hf bits bits

theorem budget_mapM {f : α → BitReader β} (hf : ∀ value made, Budget (f value) made fun _ => made)
    (values : List α) : Budget (values.mapM f) made fun _ => made := by
  induction values with
  | nil => exact budget_pure (Nat.le_refl _)
  | cons value values ih =>
      rw [List.mapM_cons]
      exact (hf value made).bind fun _ _ => ih.bind fun _ _ => budget_pure (Nat.le_refl _)

/-! ### Bits and numbers -/

theorem budget_readBit : Budget readBit made fun _ => made + maxRepeat := by
  intro bits value rest hrun
  cases bits with
  | nil => cases hrun
  | cons bit bits =>
      obtain ⟨-, rfl⟩ := Prod.mk.inj (Option.some.inj hrun)
      dsimp only
      rw [List.length_cons, Nat.mul_add, Nat.mul_one]
      omega

theorem budget_readNat (count : Nat) :
    Budget (readNat count) made fun _ => made + maxRepeat * count := by
  induction count generalizing made with
  | zero => exact budget_pure (Nat.le_refl _)
  | succ count ih =>
      rw [readNat]
      refine budget_readBit.bind fun bit _ => ih.bind fun rest _ => budget_pure ?_
      rw [Nat.mul_add, Nat.mul_one]
      omega

/-- Reading a number makes no bytes. -/
theorem budget_readNat_only (count : Nat) : Budget (readNat count) made fun _ => made :=
  (budget_readNat count).mono (Nat.le_refl _) fun _ => Nat.le_add_right _ _

theorem lt_of_gives_readNat {count n : Nat} (h : Gives (readNat count) n) : n < 2 ^ count := by
  induction count generalizing n with
  | zero =>
      obtain ⟨bits, rest, hrun⟩ := h
      obtain ⟨rfl, -⟩ := run_pure_eq_some_iff.mp hrun
      decide
  | succ count ih =>
      obtain ⟨bits, rest, hrun⟩ := h
      rw [readNat] at hrun
      obtain ⟨bit, later, -, hlater⟩ := run_bind_eq_some_iff.mp hrun
      obtain ⟨high, last, hhigh, hpure⟩ := run_bind_eq_some_iff.mp hlater
      obtain ⟨rfl, -⟩ := run_pure_eq_some_iff.mp hpure
      have hbelow := ih ⟨_, _, hhigh⟩
      have hbit : bit.toNat ≤ 1 := Bool.toNat_le bit
      rw [Nat.pow_succ]
      omega

theorem budget_alignToByte : Budget alignToByte made fun _ => made := by
  intro bits value rest hrun
  obtain ⟨-, rfl⟩ := Prod.mk.inj (Option.some.inj hrun)
  have hfewer : (bits.drop (bits.length % 8)).length ≤ bits.length := by simp
  exact Nat.add_le_add_left (Nat.mul_le_mul_left _ hfewer) _

theorem budget_readBytes (count : Nat) (out : Array UInt8) :
    Budget (readBytes count out) out.size (·.size) := by
  induction count generalizing out with
  | zero => exact budget_pure (Nat.le_refl _)
  | succ count ih =>
      rw [readBytes]
      refine (budget_readNat 8).bind fun byte _ => (ih _).mono ?_ fun _ => Nat.le_refl _
      rw [Array.size_push, maxRepeat]
      omega

/-- Reading bytes that are not kept makes none. -/
theorem budget_readBytes_only (count : Nat) (out : Array UInt8) :
    Budget (readBytes count out) made fun _ => made := by
  induction count generalizing out with
  | zero => exact budget_pure (Nat.le_refl _)
  | succ count ih => exact (budget_readNat_only 8).bind fun byte _ => ih _

/-! ### Codes -/

theorem budget_readSymbolFrom (symbols : Array Nat) (counts : List Nat) (code first index : Nat) :
    Budget (readSymbolFrom symbols counts code first index) made fun _ => made + maxRepeat := by
  induction counts generalizing code first index made with
  | nil => exact budget_failure
  | cons count rest ih =>
      rw [readSymbolFrom]
      refine budget_readBit.bind fun bit _ => ?_
      dsimp only
      split
      · split
        · exact budget_pure (Nat.le_refl _)
        · exact budget_failure
      · exact (ih _ _ _).mono (Nat.le_refl _) fun _ => Nat.le_add_right _ _

/-- A code takes a bit at least. -/
theorem budget_readSymbol (code : Code) : Budget code.readSymbol made fun _ => made + maxRepeat :=
  budget_readSymbolFrom _ _ _ _ _

theorem budget_readSymbol_only (code : Code) : Budget code.readSymbol made fun _ => made :=
  (budget_readSymbol code).mono (Nat.le_refl _) fun _ => Nat.le_add_right _ _

theorem budget_readRanged (ranges : List (Nat × Nat)) (symbol : Nat) :
    Budget (readRanged ranges symbol) made fun _ => made := by
  unfold readRanged
  split
  · exact budget_failure
  · exact (budget_readNat_only _).bind fun _ _ => budget_pure (Nat.le_refl _)

/-- No length symbol stands for more than `maxRepeat` bytes. -/
theorem le_of_gives_lengthRanges {symbol length : Nat}
    (h : Gives (readRanged lengthRanges symbol) length) : length ≤ maxRepeat := by
  obtain ⟨bits, rest, hrun⟩ := h
  unfold readRanged at hrun
  cases hrange : lengthRanges[symbol]? with
  | none =>
      rw [hrange] at hrun
      cases hrun
  | some range =>
      rw [hrange] at hrun
      obtain ⟨extra, later, hextra, hpure⟩ := run_bind_eq_some_iff.mp hrun
      obtain ⟨rfl, -⟩ := run_pure_eq_some_iff.mp hpure
      have hbelow := lt_of_gives_readNat ⟨_, _, hextra⟩
      have hranges : ∀ range ∈ lengthRanges, range.1 + 2 ^ range.2 ≤ maxRepeat + 1 := by decide
      have hmost := hranges range (List.mem_of_getElem? hrange)
      omega

@[simp] theorem size_repeatBytes (distance length : Nat) (out : Array UInt8) :
    (repeatBytes distance length out).size = out.size + length := by
  induction length generalizing out with
  | zero => rfl
  | succ length ih =>
      rw [repeatBytes, ih, Array.size_push]
      omega

theorem budget_readItems (literals distances : Code) (fuel : Nat) (out : Array UInt8) :
    Budget (readItems literals distances fuel out) out.size (·.size) := by
  induction fuel generalizing out with
  | zero => exact budget_failure
  | succ fuel ih =>
      rw [readItems]
      refine (budget_readSymbol literals).bind fun symbol _ => ?_
      split
      · refine (ih _).mono ?_ fun _ => Nat.le_refl _
        rw [Array.size_push, maxRepeat]
        omega
      split
      · exact budget_pure (Nat.le_add_right _ _)
      · refine (budget_readRanged _ _).bind fun length hlength => ?_
        refine (budget_readSymbol_only distances).bind fun distanceSymbol _ => ?_
        refine (budget_readRanged _ _).bind fun distance _ => ?_
        refine (ih _).mono ?_ fun _ => Nat.le_refl _
        rw [size_repeatBytes]
        exact Nat.add_le_add_left (le_of_gives_lengthRanges hlength) _

theorem budget_readLengths (code : Code) (fuel missing : Nat) (lengths : Array Nat) :
    Budget (readLengths code fuel missing lengths) made fun _ => made := by
  induction fuel generalizing missing lengths with
  | zero =>
      cases missing with
      | zero => exact budget_pure (Nat.le_refl _)
      | succ missing => exact budget_failure
  | succ fuel ih =>
      cases missing with
      | zero => exact budget_pure (Nat.le_refl _)
      | succ missing =>
          rw [readLengths]
          · refine (budget_readSymbol_only code).bind fun symbol _ => ?_
            have happend : ∀ value count : Nat, Budget
                (if count ≤ missing + 1 then
                  readLengths code fuel (missing + 1 - count)
                    (lengths ++ (List.replicate count value).toArray)
                else failure) made fun _ => made := by
              intro value count
              split
              · exact ih _ _
              · exact budget_failure
            have hrun : ∀ value least bits : Nat, Budget (do
                let more ← readNat bits
                let count ← pure (least + more)
                if count ≤ missing + 1 then
                  readLengths code fuel (missing + 1 - count)
                    (lengths ++ (List.replicate count value).toArray)
                else failure) made fun _ => made := fun value least bits =>
              (budget_readNat_only bits).bind fun _ _ => happend value _
            split
            · exact ih _ _
            split
            · split
              · have hnothing : Budget (failure : BitReader (Nat × Nat)) made fun _ => made :=
                  budget_failure
                exact hnothing.bind fun run _ => happend run.1 run.2
              · exact hrun _ 3 2
            split
            · exact hrun 0 3 3
            · exact hrun 0 11 7
          · exact nofun

theorem budget_readCodes : Budget readCodes made fun _ => made := by
  have hcodes : ∀ lengthCount literalCount total : Nat, Budget (do
      let listed ← (lengthCodeOrder.take lengthCount).mapM fun symbol => do
        return (symbol, ← readNat 3)
      let lengthCode ← Code.ofLengths? <| (List.range 19).map fun symbol =>
        (listed.lookup symbol).getD 0
      let lengths ← readLengths lengthCode total total #[]
      let literals ← Code.ofLengths? (lengths.take literalCount)
      let distances ← Code.ofLengths? (lengths.drop literalCount)
      return (literals, distances)) made fun _ => made := by
    intro lengthCount literalCount total
    refine (budget_mapM (fun symbol made => ?_) _).bind fun listed _ => ?_
    · exact (budget_readNat_only 3).bind fun _ _ => budget_pure (Nat.le_refl _)
    refine (budget_lift _).bind fun lengthCode _ => ?_
    refine (budget_readLengths _ _ _ _).bind fun lengths _ => ?_
    refine (budget_lift _).bind fun literals _ => ?_
    exact (budget_lift _).bind fun distances _ => budget_pure (Nat.le_refl _)
  unfold readCodes
  refine (budget_readNat_only 5).bind fun literalCount _ => ?_
  refine (budget_readNat_only 5).bind fun distanceCount _ => ?_
  refine (budget_readNat_only 4).bind fun lengthCount _ => ?_
  dsimp only
  split
  · exact budget_failure.bind fun _ _ => hcodes _ _ _
  · exact hcodes _ _ _

/-! ### Blocks -/

theorem budget_readStored (out : Array UInt8) : Budget (readStored out) out.size (·.size) := by
  unfold readStored
  refine budget_alignToByte.bind fun _ _ => ?_
  refine (budget_readNat_only 16).bind fun length _ => ?_
  refine (budget_readNat_only 16).bind fun complement _ => ?_
  split
  · exact budget_readBytes _ _
  · exact budget_failure

theorem budget_readBlock (out : Array UInt8) : Budget (readBlock out) out.size (·.size) := by
  unfold readBlock
  refine budget_get_bind fun bits => ?_
  refine (budget_readNat_only 2).bind fun kind _ => ?_
  split
  · exact budget_readStored out
  · refine (budget_lift _).bind fun literals _ => ?_
    exact (budget_lift _).bind fun distances _ => budget_readItems _ _ _ out
  · exact budget_readCodes.bind fun codes _ => budget_readItems _ _ _ out
  · exact budget_failure

theorem budget_readBlocks (fuel : Nat) (out : Array UInt8) :
    Budget (readBlocks fuel out) out.size (·.size) := by
  induction fuel generalizing out with
  | zero => exact budget_failure
  | succ fuel ih =>
      rw [readBlocks]
      refine (budget_readBit.mono (Nat.le_refl _) fun _ => Nat.le_add_right _ _).bind fun last _ => ?_
      refine (budget_readBlock out).bind fun out _ => ?_
      split
      · exact budget_pure (Nat.le_refl _)
      · exact ih out

theorem budget_readAll : Budget readAll 0 (·.length) := by
  unfold readAll
  refine budget_get_bind fun bits => ?_
  refine (budget_readBlocks _ #[]).bind fun out _ => budget_pure ?_
  exact Nat.le_of_eq out.length_toList

theorem length_bitsOf (bytes : Bytes) : (bitsOf bytes).length = 8 * bytes.length := by
  induction bytes with
  | nil => rfl
  | cons byte bytes ih =>
      rw [bitsOf, List.flatMap_cons, List.length_append, ← bitsOf, ih, List.length_cons]
      have hbyte : (byteBits byte).length = 8 := by simp [byteBits]
      omega

end RecordGateway.Deflate

namespace RecordGateway.Zlib

open Deflate

theorem budget_readEnvelope : Budget readEnvelope 0 (·.length) := by
  have hchecked : ∀ bytes, Budget (do
      let claimed ← readBytes 4 #[]
      if BigEndian.decode claimed.toList = checksum bytes then return bytes else failure)
      bytes.length (·.length) := by
    intro bytes
    have hclaimed : Budget (readBytes 4 #[]) bytes.length fun _ => bytes.length :=
      budget_readBytes_only 4 #[]
    refine hclaimed.bind fun claimed _ => ?_
    split
    · exact budget_pure (Nat.le_refl _)
    · exact budget_failure
  have hrest : Budget (do
      let bytes ← readAll
      alignToByte
      let claimed ← readBytes 4 #[]
      if BigEndian.decode claimed.toList = checksum bytes then return bytes else failure)
      0 (·.length) :=
    budget_readAll.bind fun bytes _ => budget_alignToByte.bind fun _ _ => hchecked bytes
  unfold readEnvelope
  refine (budget_readNat_only 8).bind fun method _ => ?_
  refine (budget_readNat_only 8).bind fun flags _ => ?_
  dsimp only
  split
  · exact budget_failure.bind fun _ _ => hrest
  · exact hrest

/-- Compressed bytes expand at most `8 * maxRepeat` times. -/
theorem length_inflate_le {bytes inflated : Bytes} (h : inflate bytes = some inflated) :
    inflated.length ≤ 8 * maxRepeat * bytes.length := by
  unfold inflate at h
  split at h
  · obtain rfl := Option.some.inj h
    exact Nat.zero_le _
  · obtain ⟨⟨made, rest⟩, hrun, rfl⟩ := Option.map_eq_some_iff.mp h
    have hspent := budget_readEnvelope _ _ _ hrun
    rw [length_bitsOf, ← Nat.mul_assoc, Nat.mul_comm maxRepeat 8, Nat.zero_add] at hspent
    exact Nat.le_trans (Nat.le_add_right _ _) hspent

end RecordGateway.Zlib
