import RecordGateway.Bytes.BigEndian.Lemmas
import RecordGateway.Group.Body

/-!
Groups among the bytes of an answer. `first?` finds the group with which bytes begin, if all of it is
there and it is sound, and bytes that follow change nothing of what it finds (`first?_append`). Unpacking
accepts exactly what has the form of a body (`unwrapWith_eq_ok_iff`), so a body that is packed plainly and
one that is packed in compressed form come out the same (`Packs.first?_eq`).
-/

namespace RecordGateway.Group

namespace Header

theorem decode_take (bytes : Bytes) : decode (bytes.take headerLength) = decode bytes := by
  rw [decode, decode, List.take_take, Nat.min_self]

theorem decode_append {bytes : Bytes} (hlength : headerLength ≤ bytes.length) (more : Bytes) :
    decode (bytes ++ more) = decode bytes := by
  rw [← decode_take, List.take_append_of_le_length hlength, decode_take]

theorem length_encode (header : Header) : header.encode.length = headerLength := by
  rw [encode, List.length_cons, List.length_cons, BigEndian.length_encode]
  rfl

theorem check_eq_ok_iff {candidate header : Header} :
    candidate.check = .ok header ↔
      (header.type = plainType ∨ header.type = compressedType) ∧ header.size ≤ maxSize ∧
        candidate = header := by
  rw [check]
  constructor
  · intro h
    split at h
    · cases h
    · next htype =>
        split at h
        · cases h
        · next hsize =>
            obtain rfl := Except.ok.inj h
            exact ⟨by tauto, Nat.not_lt.mp hsize, rfl⟩
  · rintro ⟨htype, hsize, rfl⟩
    rw [if_neg (by tauto), if_neg (Nat.not_lt.mpr hsize)]

/-- A header is read exactly where its bytes stand, if it may stand before a group. -/
theorem decode_eq_ok_iff {bytes : Bytes} {header : Header} :
    decode bytes = .ok header ↔
      (header.type = plainType ∨ header.type = compressedType) ∧ header.size ≤ maxSize ∧
        header.encode <+: bytes := by
  constructor
  · intro h
    rw [decode] at h
    split at h
    · next version type size hbytes =>
        split at h
        · next hwidth =>
            obtain ⟨htype, hsize, rfl⟩ := check_eq_ok_iff.mp h
            refine ⟨htype, hsize, ?_⟩
            rw [encode, ← hwidth, BigEndian.encode_decode, ← hbytes]
            exact List.take_prefix _ _
        · cases h
    · cases h
  · rintro ⟨htype, hsize, rest, rfl⟩
    have hsmall : header.size < 256 ^ 6 := Nat.lt_of_le_of_lt hsize (by decide)
    rw [decode, List.take_append_of_le_length (by rw [length_encode]),
      List.take_of_length_le (by rw [length_encode])]
    simp only [encode, BigEndian.length_encode, if_pos, BigEndian.decode_encode 6 _ hsmall]
    exact check_eq_ok_iff.mpr ⟨htype, hsize, rfl⟩

theorem length_of_decode {bytes : Bytes} {header : Header} (h : decode bytes = .ok header) :
    headerLength ≤ bytes.length := by
  obtain ⟨-, -, hbegins⟩ := decode_eq_ok_iff.mp h
  exact length_encode header ▸ hbegins.length_le

/-- A header that may stand before a group comes back from its bytes. -/
theorem decode_encode {header : Header}
    (htype : header.type = plainType ∨ header.type = compressedType)
    (hsize : header.size ≤ maxSize) (rest : Bytes) :
    decode (header.encode ++ rest) = .ok header :=
  decode_eq_ok_iff.mpr ⟨htype, hsize, List.prefix_append _ _⟩

end Header

/-- The body of the group with which the bytes begin, and what follows the group; none if the group
is not all there or cannot be unpacked. -/
def first? (bytes : Bytes) : Option (Bytes × Bytes) :=
  match Header.decode bytes with
  | .error _ => none
  | .ok header =>
    let rest := bytes.drop headerLength
    if rest.length < header.size then none
    else
      match unwrap header (rest.take header.size) with
      | .error _ => none
      | .ok body => some (body, rest.drop header.size)

theorem first?_eq_some_iff {bytes body rest : Bytes} :
    first? bytes = some (body, rest) ↔
      ∃ header packed, Header.decode bytes = .ok header ∧ packed.length = header.size ∧
        bytes.drop headerLength = packed ++ rest ∧ unwrap header packed = .ok body := by
  rw [first?]
  constructor
  · intro h
    split at h
    · cases h
    · next header hheader =>
        dsimp only at h
        split at h
        · cases h
        · next hsize =>
            split at h
            · cases h
            · next found hunwrap =>
                obtain ⟨rfl, rfl⟩ := Prod.mk.inj (Option.some.inj h)
                refine ⟨header, _, hheader, ?_, (List.take_append_drop ..).symm, hunwrap⟩
                exact List.length_take_of_le (Nat.not_lt.mp hsize)
  · rintro ⟨header, packed, hheader, hpacked, hdrop, hunwrap⟩
    simp only [hheader, hdrop]
    rw [if_neg (by rw [List.length_append]; omega), ← hpacked, List.take_left, List.drop_left, hunwrap]

theorem first?_of_length_lt {bytes : Bytes} (hshort : bytes.length < headerLength) :
    first? bytes = none := by
  cases hfirst : first? bytes with
  | none => rfl
  | some found =>
      obtain ⟨header, _, hheader, _⟩ := first?_eq_some_iff.mp (Prod.eta found ▸ hfirst)
      exact absurd (Header.length_of_decode hheader) (Nat.not_le.mpr hshort)

theorem first?_of_bad_header {front : Bytes} {fault : Fault} (hlength : front.length = headerLength)
    (hheader : Header.decode front = .error fault) (rest : Bytes) : first? (front ++ rest) = none := by
  rw [first?, Header.decode_append (Nat.le_of_eq hlength.symm), hheader]

/-- After a header the group is there if its body is, and sound if its body can be unpacked. -/
theorem first?_of_header {front : Bytes} {header : Header} (hlength : front.length = headerLength)
    (hheader : Header.decode front = .ok header) (rest : Bytes) :
    first? (front ++ rest) =
      if rest.length < header.size then none
      else
        (unwrap header (rest.take header.size)).toOption.map fun body =>
          (body, rest.drop header.size) := by
  rw [first?, Header.decode_append (Nat.le_of_eq hlength.symm), hheader]
  simp only [List.drop_left' hlength]
  cases unwrap header (rest.take header.size) <;> rfl

theorem first?_append {bytes body rest : Bytes} (h : first? bytes = some (body, rest))
    (more : Bytes) : first? (bytes ++ more) = some (body, rest ++ more) := by
  obtain ⟨header, packed, hheader, hpacked, hdrop, hunwrap⟩ := first?_eq_some_iff.mp h
  have hlength := Header.length_of_decode hheader
  refine first?_eq_some_iff.mpr ⟨header, packed, ?_, hpacked, ?_, hunwrap⟩
  · rw [Header.decode_append hlength, hheader]
  · rw [List.drop_append_of_le_length hlength, hdrop, List.append_assoc]

theorem length_of_first? {bytes body rest : Bytes} (h : first? bytes = some (body, rest)) :
    rest.length + headerLength ≤ bytes.length := by
  obtain ⟨header, packed, hheader, _, hdrop, _⟩ := first?_eq_some_iff.mp h
  have hlength := Header.length_of_decode hheader
  have hrest := congrArg List.length hdrop
  rw [List.length_drop, List.length_append] at hrest
  omega

/-! ### Unpacking -/

/-- How a body comes out of the body under a header: a plain one is what it is; a compressed one begins
with a length, and a stream follows that expands to so many bytes, which are one whole plain group. -/
inductive Unpacks (inflate : Bytes → Option Bytes) (header : Header) : Bytes → Bytes → Prop where
  | plain {body : Bytes} :
      header.isCompressed = false → Unpacks inflate header body body
  | compressed (version : UInt8) {length : Nat} {stream inflated body : Bytes} :
      header.isCompressed = true → length ≤ maxSize + headerLength →
      inflate stream = some inflated → inflated.length = length →
      inflated = Header.encode ⟨version, plainType, length - headerLength⟩ ++ body →
      Unpacks inflate header (BigEndian.encode headerLength length ++ stream) body

/-- What a compressed body expands to is accepted exactly if it is a whole plain group. -/
theorem innerBody_eq_ok_iff {inflated body : Bytes}
    (hlength : inflated.length ≤ maxSize + headerLength) :
    innerBody inflated = .ok body ↔
      ∃ version,
        inflated = Header.encode ⟨version, plainType, inflated.length - headerLength⟩ ++ body := by
  unfold innerBody
  constructor
  · intro h
    cases hdecode : Header.decode inflated with
    | error fault =>
        rw [hdecode] at h
        cases h
    | ok inner =>
        obtain ⟨htype, hsize, rest, hrest⟩ := Header.decode_eq_ok_iff.mp hdecode
        rw [hdecode] at h
        dsimp only [bind, Except.bind] at h
        split at h
        · cases h
        · next hplain =>
            split at h
            · cases h
            · next hwhole =>
                have hsizes : inner.size = inflated.length - headerLength := by
                  simp only [ne_eq, not_not] at hwhole
                  omega
                have hkind : inner.type = plainType := by
                  refine htype.resolve_right fun hcompressed => hplain ?_
                  rw [Header.isCompressed, hcompressed]
                  rfl
                obtain rfl := Except.ok.inj h
                refine ⟨inner.version, ?_⟩
                rw [← hsizes, ← hkind]
                conv_lhs => rw [← hrest]
                rw [← hrest, List.drop_left' (Header.length_encode inner)]
  · rintro ⟨version, hinflated⟩
    have hwhole : inflated.length = headerLength + body.length := by
      have hboth := congrArg List.length hinflated
      rwa [List.length_append, Header.length_encode] at hboth
    have hsize : inflated.length - headerLength ≤ maxSize := by omega
    have hdecode : Header.decode inflated =
        .ok ⟨version, plainType, inflated.length - headerLength⟩ :=
      Header.decode_eq_ok_iff.mpr ⟨.inl rfl, hsize, body, hinflated.symm⟩
    have hdrop : inflated.drop headerLength = body := by
      conv_lhs => rw [hinflated]
      exact List.drop_left' (Header.length_encode _)
    have hplain :
        Header.isCompressed ⟨version, plainType, inflated.length - headerLength⟩ = false := rfl
    have hsizes : headerLength + (inflated.length - headerLength) = inflated.length := by omega
    simp [hdecode, hplain, hsizes, hdrop, bind, Except.bind, pure, Except.pure]

theorem Unpacks.of_unwrapWith {inflate : Bytes → Option Bytes} {header : Header}
    {packed body : Bytes} (h : unwrapWith inflate header packed = .ok body) :
    Unpacks inflate header packed body := by
  unfold unwrapWith at h
  split at h
  · next hplain =>
      obtain rfl := Except.ok.inj h
      exact .plain (by simpa using hplain)
  · next hcompressed =>
      dsimp only [bind, Except.bind] at h
      split at h
      · cases h
      · next hlong =>
          split at h
          · cases h
          · next hbound =>
              split at h
              · cases h
              · next inflated hinflate =>
                  split at h
                  · cases h
                  · next hlength =>
                      have hbound := Nat.not_lt.mp hbound
                      have hlength : inflated.length = _ := not_not.mp hlength
                      obtain ⟨version, hinflated⟩ :=
                        (innerBody_eq_ok_iff (hlength.trans_le hbound)).mp h
                      have hwidth : (packed.take headerLength).length = headerLength :=
                        List.length_take_of_le (Nat.not_lt.mp hlong)
                      have hspelled := BigEndian.encode_decode (packed.take headerLength)
                      rw [hwidth] at hspelled
                      rw [← List.take_append_drop headerLength packed, ← hspelled]
                      exact .compressed version (by simpa using hcompressed) hbound hinflate hlength
                        (hlength ▸ hinflated)

theorem Unpacks.unwrapWith_eq {inflate : Bytes → Option Bytes} {header : Header}
    {packed body : Bytes} (h : Unpacks inflate header packed body) :
    unwrapWith inflate header packed = .ok body := by
  cases h with
  | plain hplain => simp [unwrapWith, hplain, pure, Except.pure]
  | @compressed version length stream inflated _ hcompressed hbound hinflate hlength hinflated =>
      have hbegins : (BigEndian.encode headerLength length).length = headerLength :=
        BigEndian.length_encode _ _
      have hexpected : BigEndian.decode (BigEndian.encode headerLength length) = length :=
        BigEndian.decode_encode _ _ (Nat.lt_of_le_of_lt hbound (by decide))
      have htake : (BigEndian.encode headerLength length ++ stream).take headerLength =
          BigEndian.encode headerLength length := List.take_left' hbegins
      have hdrop : (BigEndian.encode headerLength length ++ stream).drop headerLength = stream :=
        List.drop_left' hbegins
      have hlong : ¬ (BigEndian.encode headerLength length ++ stream).length < headerLength := by
        rw [List.length_append, hbegins]
        omega
      have hinner : innerBody inflated = .ok body :=
        (innerBody_eq_ok_iff (hlength.trans_le hbound)).mpr ⟨version, hlength ▸ hinflated⟩
      simp only [unwrapWith, hcompressed, Bool.not_true, Bool.false_eq_true, if_false, hlong, htake,
        hdrop, hexpected, Nat.not_lt.mpr hbound, hinflate, hlength, ne_eq, not_true_eq_false, hinner]

/-- Unpacking accepts exactly what has the form of a body. -/
theorem unwrapWith_eq_ok_iff {inflate : Bytes → Option Bytes} {header : Header}
    {packed body : Bytes} :
    unwrapWith inflate header packed = .ok body ↔ Unpacks inflate header packed body :=
  ⟨Unpacks.of_unwrapWith, Unpacks.unwrapWith_eq⟩

/-! ### Packing -/

/-- A body and the bytes of a group that holds it, plainly or in compressed form. The compressed form
holds a whole plain group, whose length stands before the compressed stream. -/
inductive Packs : Bytes → Bytes → Prop where
  | plain (version : UInt8) {body : Bytes} :
      body.length ≤ maxSize →
      Packs (Header.encode ⟨version, plainType, body.length⟩ ++ body) body
  | compressed (version inner : UInt8) {body stream : Bytes} :
      body.length ≤ maxSize →
      headerLength + stream.length ≤ maxSize →
      Zlib.inflate stream = some (Header.encode ⟨inner, plainType, body.length⟩ ++ body) →
      Packs (Header.encode ⟨version, compressedType, headerLength + stream.length⟩
        ++ (BigEndian.encode headerLength (headerLength + body.length) ++ stream)) body

def plain (body : Bytes) : Bytes :=
  Header.encode ⟨version, plainType, body.length⟩ ++ body

theorem packs_plain {body : Bytes} (hbody : body.length ≤ maxSize) : Packs (plain body) body :=
  .plain version hbody

theorem unwrap_compressed (version inner : UInt8) {body stream : Bytes}
    (hbody : body.length ≤ maxSize)
    (hinflate : Zlib.inflate stream =
      some (Header.encode ⟨inner, plainType, body.length⟩ ++ body)) :
    unwrap ⟨version, compressedType, headerLength + stream.length⟩
      (BigEndian.encode headerLength (headerLength + body.length) ++ stream) = .ok body := by
  have hlength : (Header.encode ⟨inner, plainType, body.length⟩ ++ body).length =
      headerLength + body.length := by
    rw [List.length_append, Header.length_encode]
  refine Unpacks.unwrapWith_eq (.compressed inner rfl ?_ hinflate hlength ?_)
  · rw [Nat.add_comm]
    exact Nat.add_le_add_right hbody _
  · rw [Nat.add_sub_cancel_left]

theorem Packs.first?_eq {wire body : Bytes} (h : Packs wire body) (rest : Bytes) :
    first? (wire ++ rest) = some (body, rest) := by
  rw [first?_eq_some_iff]
  cases h with
  | plain version hbody =>
      refine ⟨⟨version, plainType, body.length⟩, body, ?_, rfl, ?_, rfl⟩
      · rw [List.append_assoc]
        exact Header.decode_encode (.inl rfl) hbody _
      · rw [List.append_assoc]
        exact List.drop_left' (Header.length_encode _)
  | @compressed version inner _ stream hbody hstream hinflate =>
      refine ⟨⟨version, compressedType, headerLength + stream.length⟩,
        BigEndian.encode headerLength (headerLength + body.length) ++ stream, ?_, ?_, ?_,
        unwrap_compressed version inner hbody hinflate⟩
      · rw [List.append_assoc]
        exact Header.decode_encode (.inr rfl) hstream _
      · rw [List.length_append, BigEndian.length_encode]
      · rw [List.append_assoc]
        exact List.drop_left' (Header.length_encode _)

end RecordGateway.Group
