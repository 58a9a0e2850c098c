import Mathlib.Data.List.DropRight
import RecordGateway.Credential.Claims
import RecordGateway.Proofs.Bytes.Base64
import RecordGateway.Proofs.Json.Texts
import RecordGateway.Proofs.Row.Failures

/-!
Claims that a token states. They are written as an object of two integers, in base 64 text whose filling
may be left out, between the first dot of the token and the second, if there is one. From every such
token the claims are read as they were written, and refused only if the token is never valid
(`Claims.ofToken_of_segment`).
-/

namespace RecordGateway.Credential

open Json

/-! ### Segments -/

/-- Nothing but the segment matters of what stands behind the first dot. -/
theorem secondSegment?_eq {front segment rest : List Char} (hfront : '.' ∉ front)
    (hsegment : '.' ∉ segment) (hrest : rest = [] ∨ ∃ more, rest = '.' :: more) :
    secondSegment? (front ++ '.' :: (segment ++ rest)) = some segment := by
  have hdrop : (front ++ '.' :: (segment ++ rest)).dropWhile (· ≠ '.') = '.' :: (segment ++ rest) := by
    rw [List.dropWhile_append_of_pos]
    · rfl
    · intro c hc
      exact decide_eq_true (ne_of_mem_of_not_mem hc hfront)
  have htake : (segment ++ rest).takeWhile (· ≠ '.') = segment := by
    rw [List.takeWhile_append_of_pos]
    · rcases hrest with rfl | ⟨more, rfl⟩
      · exact List.append_nil _
      · exact List.append_nil _
    · intro c hc
      exact decide_eq_true (ne_of_mem_of_not_mem hc hsegment)
  rw [secondSegment?, hdrop]
  exact congrArg some htake

theorem secondSegment?_eq_none {token : List Char} (h : '.' ∉ token) : secondSegment? token = none := by
  have hdrop : token.dropWhile (· ≠ '.') = [] := by
    rw [List.dropWhile_eq_nil_iff]
    intro c hc
    exact decide_eq_true (ne_of_mem_of_not_mem hc h)
  rw [secondSegment?, hdrop]

/-! ### Filling -/

/-- A text without the `=` at its end. -/
def stripped (text : List Char) : List Char :=
  text.rdropWhile (· = '=')

theorem stripped_eq {symbols : List Char} (hsymbols : '=' ∉ symbols) (count : Nat) :
    stripped (symbols ++ List.replicate count '=') = symbols := by
  induction count with
  | zero =>
      rw [List.replicate_zero, List.append_nil, stripped, List.rdropWhile_eq_self_iff]
      intro hsome
      have hlast : symbols.getLast hsome ≠ '=' :=
        ne_of_mem_of_not_mem (List.getLast_mem hsome) hsymbols
      rw [decide_eq_true_eq]
      exact hlast
  | succ count ih =>
      rw [List.replicate_succ', ← List.append_assoc, stripped, List.rdropWhile_concat_pos _ _ _ rfl]
      exact ih

theorem byteLength_eq_length {chars : List Char} (h : ∀ c ∈ chars, c.utf8Size = 1) :
    byteLength chars = chars.length := by
  induction chars with
  | nil => rfl
  | cons c chars ih =>
      rw [List.forall_mem_cons] at h
      have hrest := ih h.2
      rw [byteLength] at hrest ⊢
      rw [List.foldr_cons, hrest, h.1, List.length_cons, Nat.add_comm]

theorem pad_eq {segment : List Char} (h : ∀ c ∈ segment, c.utf8Size = 1) :
    pad segment = segment ++ List.replicate (Base64.filling segment.length) '=' := by
  rw [pad, byteLength_eq_length h, Base64.filling]

/-- The filling is put back, and what is filled is left as it is. -/
theorem pad_encodeChars (bytes : Bytes) :
    pad (Base64.encodeChars .urlSafe bytes) = Base64.encodeChars .urlSafe bytes ∧
      pad (stripped (Base64.encodeChars .urlSafe bytes)) = Base64.encodeChars .urlSafe bytes := by
  have hsize : ∀ c ∈ Base64.encodeChars .urlSafe bytes, c.utf8Size = 1 :=
    Base64.forall_mem_encodeChars (by decide) (by decide) bytes
  obtain ⟨symbols, hsymbols, hall⟩ := Base64.exists_symbols .urlSafe bytes
  constructor
  · have hfull : Base64.filling (Base64.encodeChars .urlSafe bytes).length = 0 := by
      rw [hsymbols, List.length_append, List.length_replicate, Base64.filling, Base64.filling]
      omega
    rw [pad_eq hsize, hfull, List.replicate_zero, List.append_nil]
  · have hstripped : stripped (Base64.encodeChars .urlSafe bytes) = symbols := by
      have hopen : '=' ∉ symbols := by
        intro hmem
        obtain ⟨n, hn, heq⟩ := hall _ hmem
        exact Base64.urlSafe_distinct.symbol_ne n hn heq.symm
      rw [hsymbols, stripped_eq hopen]
    rw [hstripped, pad_eq, ← hsymbols]
    intro c hc
    refine hsize c ?_
    rw [hsymbols]
    exact List.mem_append_left _ hc

theorem dot_notMem_encodeChars (bytes : Bytes) : '.' ∉ Base64.encodeChars .urlSafe bytes := by
  have hother : ∀ c ∈ Base64.encodeChars .urlSafe bytes, c ≠ '.' :=
    Base64.forall_mem_encodeChars (by decide) (by decide) bytes
  exact fun hdot => hother _ hdot rfl

/-! ### Claims -/

namespace Claims

/-- The document in which claims are stated. -/
def document (claims : Claims) : Json.Value :=
  .object [("iat", .int claims.issuedAt.toInt), ("exp", .int claims.expiresAt.toInt)]

/-- The segment in which claims are stated, with its filling. -/
def segment (claims : Claims) : List Char :=
  Base64.encodeChars .urlSafe (utf8 claims.document.compact)

theorem readInt64?_ofInt (n : Int64) : readInt64? (.number (.ofInt n.toInt)) = some n := by
  have hbounds : Int64.minValue.toInt ≤ n.toInt ∧ n.toInt ≤ Int64.maxValue.toInt :=
    ⟨n.le_toInt, n.toInt_le⟩
  rw [readInt64?, Document.asIntWithin?, Numeral.toIntWithin?, Numeral.toInt?_ofInt,
    Option.filter_some_pos (by simpa using hbounds)]
  exact congrArg some (Int64.ofInt_toInt n)

/-- Claims are read back from their document. -/
theorem ofDocument?_document (claims : Claims) :
    Document.read? (utf8 claims.document.compact) >>= ofDocument? = some claims := by
  obtain ⟨document, hread, htold⟩ := read?_compact claims.document
  rw [hread]
  cases htold with
  | object htold =>
      obtain _ | ⟨⟨⟩, _ | ⟨⟨⟩, ⟨⟩⟩⟩ := htold
      simp [ofDocument?, Document.fields?, readInt64?_ofInt]

example : (Claims.mk (-1) 20).document.compact = "\x7b\"iat\":-1,\"exp\":20\x7d" := by
  decide +kernel

/-- A token states the claims in its second segment, filled or not, whatever stands before the segment and
behind it. They are read back as they were written if they are the claims of a token that is ever valid,
and refused as unsound if they are not, as is a token that has no second segment. -/
theorem ofToken_of_segment :
    (∀ (claims : Claims) (first segment rest : String), '.' ∉ first.toList →
      segment.toList = claims.segment ∨ segment.toList = stripped claims.segment →
      (rest = "" ∨ ∃ more, rest = "." ++ more) →
        (claims.issuedAt < claims.expiresAt →
          ofToken (first ++ "." ++ segment ++ rest) = .ok claims) ∧
        (claims.expiresAt ≤ claims.issuedAt →
          ∃ fault, ofToken (first ++ "." ++ segment ++ rest) = .error fault ∧ fault.IsParse)) ∧
    ∀ token : String, '.' ∉ token.toList →
      ∃ fault, ofToken token = .error fault ∧ fault.IsParse := by
  constructor
  · intro claims first segment rest hfirst hsegment hrest
    have hpad : pad segment.toList = claims.segment := by
      rcases hsegment with hfilled | hstripped
      · rw [hfilled]
        exact (pad_encodeChars _).1
      · rw [hstripped]
        exact (pad_encodeChars _).2
    have hdot : '.' ∉ segment.toList := by
      intro hmem
      have hpadded : '.' ∈ pad segment.toList := List.mem_append_left _ hmem
      rw [hpad] at hpadded
      exact dot_notMem_encodeChars _ hpadded
    have hfound : secondSegment? (first ++ "." ++ segment ++ rest).toList = some segment.toList := by
      have htoken : (first ++ "." ++ segment ++ rest).toList =
          first.toList ++ '.' :: (segment.toList ++ rest.toList) := by
        simp
      rw [htoken]
      refine secondSegment?_eq hfirst hdot ?_
      rcases hrest with rfl | ⟨more, rfl⟩
      · exact .inl rfl
      · exact .inr ⟨more.toList, by simp⟩
    have hbytes : Base64.decodeChars? .urlSafe claims.segment =
        some (utf8 claims.document.compact) :=
      Base64.decodeChars?_encodeChars Base64.urlSafe_distinct _
    have hread : ofToken (first ++ "." ++ segment ++ rest) = claims.check := by
      unfold ofToken
      rw [hfound]
      dsimp only
      rw [hpad, hbytes]
      dsimp only
      rw [ofDocument?_document]
    rw [hread, check]
    constructor
    · intro hvalid
      rw [if_pos hvalid]
    · intro hnever
      rw [if_neg (Int64.not_lt.mpr hnever)]
      exact ⟨_, rfl, Fault.isParse_parse _ _⟩
  · intro token htoken
    rw [ofToken, secondSegment?_eq_none htoken]
    exact ⟨_, rfl, Fault.isParse_parse _ _⟩

/-- Claims before the beginning of the count of seconds, in a segment that is not filled. -/
theorem early_token_read :
    "eyJpYXQiOi0xLCJleHAiOjIwfQ".toList = stripped (segment ⟨-1, 20⟩) ∧
      ofToken ("e30" ++ "." ++ "eyJpYXQiOi0xLCJleHAiOjIwfQ" ++ ".sig") = .ok ⟨-1, 20⟩ := by
  have hsegment : "eyJpYXQiOi0xLCJleHAiOjIwfQ".toList = stripped (segment ⟨-1, 20⟩) := by
    decide +kernel
  obtain ⟨hread, -⟩ := ofToken_of_segment
  refine ⟨hsegment, ?_⟩
  exact (hread ⟨-1, 20⟩ "e30" _ ".sig" (by decide) (.inr hsegment) (.inr ⟨"sig", rfl⟩)).1 (by decide)

end Claims
end RecordGateway.Credential
