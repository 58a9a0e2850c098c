import RecordGateway.Fault.Report
import RecordGateway.Text.Utf8

/-!
Messages of bounded length. A message is a text and its causes, joined only as far as the bound can show
and then cut where a character ends. That comes to the same as joining all of them and cutting once
(`longest_cut_joinUpTo`): where the joining stops early the text has reached the bound, and what would follow
it cannot be seen (`Longest.extend`).
-/

namespace RecordGateway

/-- A text begins with another if its bytes do. -/
theorem toList_prefix_of_utf8 {front whole : String} (h : utf8 front <+: utf8 whole) :
    front.toList <+: whole.toList := by
  obtain ⟨rest, hrest⟩ := h
  refine List.isPrefix_of_utf8Encode_append_eq_utf8Encode rest.toByteArray ?_
  rw [String.utf8Encode_toList, String.utf8Encode_toList]
  apply ByteArray.ext
  apply Array.toList_inj.mp
  simpa [utf8] using hrest

theorem utf8_prefix_of_toList {front whole : String} (h : front.toList <+: whole.toList) :
    utf8 front <+: utf8 whole := by
  obtain ⟨rest, hrest⟩ := h
  have hwhole : whole = front ++ String.ofList rest := by
    rw [← String.toList_inj, ← hrest]
    simp
  rw [hwhole, utf8_append]
  exact List.prefix_append _ _

namespace Excerpt

/-- A text is the longest beginning of another that takes at most `max` bytes: its bytes are the first
ones of the other, and at no later place up to the bound does a character end. -/
structure Longest (max : Nat) (whole text : String) : Prop where
  beginning : utf8 text = (utf8 whole).take text.utf8ByteSize
  fits : text.utf8ByteSize ≤ max
  longest : ∀ count, text.utf8ByteSize < count → count ≤ max → count ≤ whole.utf8ByteSize →
    Utf8.decode? ((utf8 whole).take count) = none

/-! ### Cutting -/

theorem utf8ByteSize_cons (c : Char) (chars : List Char) :
    (String.ofList (c :: chars)).utf8ByteSize = c.utf8Size + (String.ofList chars).utf8ByteSize := by
  rw [← length_utf8, ← length_utf8, utf8_ofList, utf8_ofList, List.flatMap_cons, List.length_append,
    String.length_utf8EncodeChar]

theorem takeBytes_prefix (room : Nat) (chars : List Char) : takeBytes room chars <+: chars := by
  induction chars generalizing room with
  | nil => exact List.nil_prefix
  | cons c rest ih =>
      rw [takeBytes]
      split
      · exact List.cons_prefix_cons.mpr ⟨rfl, ih _⟩
      · exact List.nil_prefix

theorem utf8ByteSize_takeBytes (room : Nat) (chars : List Char) :
    (String.ofList (takeBytes room chars)).utf8ByteSize ≤ room := by
  induction chars generalizing room with
  | nil => exact Nat.zero_le room
  | cons c rest ih =>
      rw [takeBytes]
      split
      · have hrest := ih (room - c.utf8Size)
        rw [utf8ByteSize_cons]
        omega
      · exact Nat.zero_le room

/-- No beginning that takes as little is longer. -/
theorem prefix_takeBytes {front chars : List Char} {room : Nat} (hfront : front <+: chars)
    (hroom : (String.ofList front).utf8ByteSize ≤ room) : front <+: takeBytes room chars := by
  induction front generalizing chars room with
  | nil => exact List.nil_prefix
  | cons c front ih =>
      obtain ⟨rest, rfl⟩ := hfront
      rw [utf8ByteSize_cons] at hroom
      rw [List.cons_append, takeBytes, if_pos (by omega)]
      exact List.cons_prefix_cons.mpr ⟨rfl, ih (List.prefix_append _ _) (by omega)⟩

/-- What is longest among whole characters is longest among bytes: where a character ends the bytes
before it are a text. -/
theorem Longest.of_toList {max : Nat} {whole text : String} (hbegins : text.toList <+: whole.toList)
    (hfits : text.utf8ByteSize ≤ max)
    (hlongest : ∀ other : String, other.toList <+: whole.toList → other.utf8ByteSize ≤ max →
      other.utf8ByteSize ≤ text.utf8ByteSize) : Longest max whole text where
  beginning := by
    rw [← length_utf8]
    exact List.prefix_iff_eq_take.mp (utf8_prefix_of_toList hbegins)
  fits := hfits
  longest := by
    intro count hlater hmax hwhole
    cases hdecode : Utf8.decode? ((utf8 whole).take count) with
    | none => rfl
    | some other =>
        have hbytes := Utf8.utf8_of_decode? hdecode
        have hsize : other.utf8ByteSize = count := by
          rw [← length_utf8, hbytes, List.length_take_of_le (by rwa [length_utf8])]
        have hother := toList_prefix_of_utf8 (hbytes ▸ List.take_prefix count (utf8 whole))
        have hshort := hlongest other hother (hsize ▸ hmax)
        omega

theorem longest_cut (max : Nat) (text : String) : Longest max text (cut max text) := by
  rw [cut]
  split
  · next hfits =>
      refine .of_toList List.prefix_rfl hfits fun other hother _ => ?_
      rw [← length_utf8, ← length_utf8]
      exact (utf8_prefix_of_toList hother).length_le
  · refine .of_toList ?_ (utf8ByteSize_takeBytes _ _) fun other hother hfits => ?_
    · rw [String.toList_ofList]
      exact takeBytes_prefix _ _
    · have hlonger : other.toList <+: takeBytes max text.toList :=
        prefix_takeBytes hother (by rwa [String.ofList_toList])
      rw [← length_utf8, ← length_utf8]
      refine (utf8_prefix_of_toList ?_).length_le
      rwa [String.toList_ofList]

/-! ### Joining -/

/-- What follows a text that has reached the bound cannot be seen. -/
theorem Longest.extend {max : Nat} {front whole text : String} (h : Longest max front text)
    (hreached : max ≤ front.utf8ByteSize) (hfront : utf8 front <+: utf8 whole) :
    Longest max whole text := by
  obtain ⟨rest, hrest⟩ := hfront
  -- Up to the bound the two have the same bytes.
  have hsame : ∀ count ≤ max, (utf8 whole).take count = (utf8 front).take count := by
    intro count hcount
    rw [← hrest, List.take_append_of_le_length (by rw [length_utf8]; omega)]
  refine ⟨?_, h.fits, fun count hlater hmax _ => ?_⟩
  · rw [hsame _ h.fits]
    exact h.beginning
  · rw [hsame count hmax]
    exact h.longest count hlater hmax (by omega)

theorem prefix_joinAll (separator joined : String) (rest : List String) :
    utf8 joined <+: utf8 (joinAll separator joined rest) := by
  induction rest generalizing joined with
  | nil => exact List.prefix_rfl
  | cons next rest ih =>
      have hnext : utf8 joined <+: utf8 (joined ++ separator ++ next) := by
        rw [String.append_assoc, utf8_append]
        exact List.prefix_append _ _
      exact hnext.trans (ih _)

/-- The joining comes to its end, or stops where the bound is reached. -/
theorem joinUpTo_cases (max : Nat) (separator joined : String) (rest : List String) :
    joinUpTo max separator joined rest = joinAll separator joined rest ∨
      max ≤ (joinUpTo max separator joined rest).utf8ByteSize ∧
        utf8 (joinUpTo max separator joined rest) <+: utf8 (joinAll separator joined rest) := by
  induction rest generalizing joined with
  | nil => exact .inl rfl
  | cons next rest ih =>
      rw [joinUpTo]
      split
      · next hreached => exact .inr ⟨hreached, prefix_joinAll _ _ _⟩
      · exact ih _

/-- Cutting what was joined as far as the bound is cutting the whole chain. -/
theorem longest_cut_joinUpTo (max : Nat) (separator head : String) (rest : List String) :
    Longest max (joinAll separator head rest) (cut max (joinUpTo max separator head rest)) := by
  rcases joinUpTo_cases max separator head rest with hall | ⟨hreached, hbegins⟩
  · rw [hall]
    exact longest_cut _ _
  · exact (longest_cut _ _).extend hreached hbegins

/-- A whole text that fits is its own longest beginning, and has no other. -/
theorem Longest.eq_of_fits {max : Nat} {whole text : String} (h : Longest max whole text)
    (hfits : whole.utf8ByteSize ≤ max) : text = whole := by
  have hlength : ¬ text.utf8ByteSize < whole.utf8ByteSize := by
    intro hless
    have hnone := h.longest _ hless hfits (Nat.le_refl _)
    rw [← length_utf8, List.take_length, Utf8.decode?_utf8] at hnone
    cases hnone
  have hbytes : utf8 text = utf8 whole := by
    rw [h.beginning, List.take_of_length_le (by rw [length_utf8]; omega)]
  have hdecoded := Utf8.decode?_utf8 text
  rw [hbytes, Utf8.decode?_utf8] at hdecoded
  exact (Option.some.inj hdecoded).symm

end Excerpt

namespace Fault.Reporter

open Excerpt

/-- Whatever a fault and its causes say, its explanation is the longest beginning of all that they say,
joined, that the bound allows, and all of it if it fits. It is the same with the message made for a
status of the transport. -/
theorem message_is_longest_excerpt (reporter : Reporter) :
    (∀ fault : Fault,
      Longest reporter.maxLength (joinAll reporter.separator fault.display fault.causes)
          (reporter.explain fault) ∧
        ((joinAll reporter.separator fault.display fault.causes).utf8ByteSize ≤ reporter.maxLength →
          reporter.explain fault = joinAll reporter.separator fault.display fault.causes)) ∧
    ∀ (status : Status) (isWrite : Bool), ∃ message,
      (reporter.ofStatus status isWrite).message = some message ∧
        Longest reporter.maxLength (joinAll reporter.separator
          (status.code.name ++ ": " ++ status.message) status.causes) message ∧
        ((joinAll reporter.separator (status.code.name ++ ": " ++ status.message)
            status.causes).utf8ByteSize ≤ reporter.maxLength →
          message = joinAll reporter.separator (status.code.name ++ ": " ++ status.message)
            status.causes) := by
  have hjoin (head : String) (causes : List String) :
      Longest reporter.maxLength (joinAll reporter.separator head causes)
        (reporter.join head causes) :=
    longest_cut_joinUpTo reporter.maxLength reporter.separator head causes
  constructor
  · intro fault
    exact ⟨hjoin fault.display fault.causes, (hjoin fault.display fault.causes).eq_of_fits⟩
  · intro status isWrite
    have hstatus := hjoin (status.code.name ++ ": " ++ status.message) status.causes
    exact ⟨_, rfl, hstatus, hstatus.eq_of_fits⟩

end Fault.Reporter
end RecordGateway
