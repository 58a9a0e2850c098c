import RecordGateway.Credential.Token

/-!
For how long a token is valid. A token states in seconds when it was issued and when it expires, each a number
of sixty-four bits with a sign, so the milliseconds between the two (`Claims.span`) may be more than such a
number holds. The lifetime is the span itself as long as it is no more (`Claims.lifetime?_eq_some_iff`);
otherwise there is no lifetime, and whoever receives the token breaks down.
-/

namespace RecordGateway.Credential

theorem toInt64?_eq_some_iff {n : Int} {number : Int64} : toInt64? n = some number ↔ number.toInt = n := by
  have hmin : Int64.minValue.toInt = -2 ^ 63 := rfl
  have hmax : Int64.maxValue.toInt = 2 ^ 63 - 1 := rfl
  rw [toInt64?, Option.ite_none_right_eq_some, Option.some.injEq]
  constructor
  · rintro ⟨⟨hleast, hmost⟩, rfl⟩
    exact Int64.toInt_ofInt_of_le (by omega) (by omega)
  · rintro rfl
    exact ⟨⟨number.le_toInt, number.toInt_le⟩, Int64.ofInt_toInt number⟩

/-- A number that is not negative is the same without its sign. -/
theorem toNat_toUInt64 {number : Int64} (h : 0 ≤ number.toInt) :
    (number.toUInt64.toNat : Int) = number.toInt := by
  have hbits : number.toInt = Int.bmod number.toUInt64.toNat UInt64.size :=
    number.toBitVec.toInt_eq_toNat_bmod
  have hrange : (number.toUInt64.toNat : Int) < UInt64.size :=
    Int.ofNat_lt.mpr number.toUInt64.toNat_lt
  have hleast : number.toInt < UInt64.size :=
    Int.lt_of_le_of_lt number.toInt_le (by decide)
  rw [← Int.emod_eq_of_lt (Int.natCast_nonneg _) hrange, ← Int.bmod_emod, ← hbits,
    Int.emod_eq_of_lt h hleast]

namespace Claims

variable {claims : Claims} {lifetime : UInt64}

/-- How many milliseconds there are between the issue of a token and its expiry. -/
def span (claims : Claims) : Int :=
  (claims.expiresAt.toInt - claims.issuedAt.toInt) * 1000

/-- The lifetime is the span, in so many bits as hold it. Where they hold the milliseconds they hold the
seconds too. -/
theorem lifetime?_eq_some_iff :
    claims.lifetime? = some lifetime ↔
      ∃ milliseconds : Int64, milliseconds.toInt = claims.span ∧ milliseconds.toUInt64 = lifetime := by
  simp only [lifetime?, span, Option.bind_eq_bind, Option.bind_eq_some_iff, toInt64?_eq_some_iff,
    Option.pure_def, Option.some.injEq]
  constructor
  · rintro ⟨seconds, hseconds, milliseconds, hmilliseconds, hlifetime⟩
    exact ⟨milliseconds, hseconds ▸ hmilliseconds, hlifetime⟩
  · rintro ⟨milliseconds, hmilliseconds, hlifetime⟩
    obtain ⟨seconds, hseconds⟩ : ∃ seconds : Int64,
        toInt64? (claims.expiresAt.toInt - claims.issuedAt.toInt) = some seconds := by
      have hleast := milliseconds.le_toInt
      have hmost := milliseconds.toInt_le
      have hmin : Int64.minValue.toInt = -2 ^ 63 := rfl
      have hmax : Int64.maxValue.toInt = 2 ^ 63 - 1 := rfl
      exact ⟨_, if_pos (by omega)⟩
    rw [toInt64?_eq_some_iff] at hseconds
    exact ⟨seconds, hseconds, milliseconds, hseconds ▸ hmilliseconds, hlifetime⟩

theorem span_pos (h : claims.issuedAt < claims.expiresAt) : 0 < claims.span := by
  rw [Int64.lt_iff_toInt_lt] at h
  rw [span]
  omega

theorem toNat_lifetime (h : claims.issuedAt < claims.expiresAt) (hlifetime : claims.lifetime? = some lifetime) :
    claims.span ≤ Int64.maxValue.toInt ∧ (lifetime.toNat : Int) = claims.span := by
  have hpos := span_pos h
  obtain ⟨milliseconds, hspan, rfl⟩ := lifetime?_eq_some_iff.mp hlifetime
  rw [← hspan] at hpos ⊢
  exact ⟨milliseconds.toInt_le, toNat_toUInt64 (Int.le_of_lt hpos)⟩

theorem exists_lifetime (h : claims.issuedAt < claims.expiresAt)
    (hmost : claims.span ≤ Int64.maxValue.toInt) : ∃ lifetime, claims.lifetime? = some lifetime := by
  have hleast : Int64.minValue.toInt ≤ claims.span := Int.le_trans (by decide) (Int.le_of_lt (span_pos h))
  have hspan := toInt64?_eq_some_iff.mp (if_pos ⟨hleast, hmost⟩)
  exact ⟨_, lifetime?_eq_some_iff.mpr ⟨_, hspan, rfl⟩⟩

/-- Of a token that is ever valid the lifetime can be counted exactly if it is no more than the greatest
number with a sign. -/
theorem lifetime?_eq_some_iff_of_lt (h : claims.issuedAt < claims.expiresAt) :
    claims.lifetime? = some lifetime ↔
      claims.span ≤ Int64.maxValue.toInt ∧ (lifetime.toNat : Int) = claims.span := by
  constructor
  · exact toNat_lifetime h
  · rintro ⟨hmost, hlifetime⟩
    obtain ⟨counted, hcounted⟩ := exists_lifetime h hmost
    have hexact := (toNat_lifetime h hcounted).2
    rw [hcounted, UInt64.toNat_inj.mp (Int.ofNat_inj.mp (hexact.trans hlifetime.symm))]

/-- The claims of a token that was accepted have been checked. -/
theorem lt_of_ofToken {text : String} (h : ofToken text = .ok claims) :
    claims.issuedAt < claims.expiresAt := by
  have hcheck : ∃ stated : Claims, stated.check = .ok claims := by
    unfold ofToken at h
    split at h
    · split at h
      · split at h
        · exact ⟨_, h⟩
        · cases h
      · cases h
    · cases h
  obtain ⟨stated, hstated⟩ := hcheck
  rw [check] at hstated
  split at hstated
  · next hless =>
      obtain rfl := Except.ok.inj hstated
      exact hless
  · cases hstated

end Claims

/-! ### Receipt -/

namespace Token

variable {text : String} {claims : Claims} {lifetime : UInt64}

/-- Whoever receives a token whose lifetime can be counted has the token, valid for that long. -/
theorem exists_receive (h : Claims.ofToken text = .ok claims) (hlifetime : claims.lifetime? = some lifetime)
    (now : Time) (fraction : Float) :
    ∃ token, receive text now fraction = some (.ok token) ∧ token.text = text ∧
      token.claims = claims ∧ token.receivedAt = now ∧ token.lifetime = lifetime := by
  rw [receive, h]
  dsimp only
  split
  · next hnone =>
      rw [hlifetime] at hnone
      cases hnone
  · next given hgiven =>
      obtain rfl := Option.some.inj (hlifetime.symm.trans hgiven)
      exact ⟨_, rfl, rfl, rfl, rfl, rfl⟩

theorem receive_of_none (h : Claims.ofToken text = .ok claims) (hnone : claims.lifetime? = none)
    (now : Time) (fraction : Float) : receive text now fraction = none := by
  rw [receive, h]
  dsimp only
  split
  · rfl
  · next hsome =>
      rw [hnone] at hsome
      cases hsome

theorem isExpired_eq_false_iff {token : Token} {now : Time} :
    token.isExpired now = false ↔ now < token.expiresAt := by
  rw [isExpired, decide_eq_false_iff_not, Nat.not_le]

end Token

/-- Of a token that was accepted, the lifetime is the span that its claims state, to the millisecond, if this is
at most the greatest number of sixty-four bits with a sign. Then the token expires so long after its receipt,
and so is valid when it is received. Otherwise there is no lifetime, and whoever receives the token breaks
down. -/
theorem lifetime_exact_iff {text : String} {claims : Claims} (h : Claims.ofToken text = .ok claims) :
    0 < claims.span ∧
    (∀ lifetime, claims.lifetime? = some lifetime ↔
      claims.span ≤ Int64.maxValue.toInt ∧ (lifetime.toNat : Int) = claims.span) ∧
    ∀ now fraction,
      (Token.receive text now fraction = none ↔ Int64.maxValue.toInt < claims.span) ∧
      (claims.span ≤ Int64.maxValue.toInt →
        ∃ token, Token.receive text now fraction = some (.ok token) ∧ token.text = text ∧
          token.claims = claims ∧ (token.expiresAt : Int) = now + claims.span ∧
          now < token.expiresAt ∧ token.isExpired now = false) := by
  have hless := Claims.lt_of_ofToken h
  have hpos := Claims.span_pos hless
  refine ⟨hpos, fun lifetime => Claims.lifetime?_eq_some_iff_of_lt hless, fun now fraction => ?_⟩
  have hreceived : claims.span ≤ Int64.maxValue.toInt →
      ∃ token, Token.receive text now fraction = some (.ok token) ∧ token.text = text ∧
        token.claims = claims ∧ (token.expiresAt : Int) = now + claims.span ∧
        now < token.expiresAt ∧ token.isExpired now = false := by
    intro hmost
    obtain ⟨lifetime, hcounted⟩ := Claims.exists_lifetime hless hmost
    have hlifetime := (Claims.toNat_lifetime hless hcounted).2
    obtain ⟨token, hreceive, htext, hclaims, hreceivedAt, rfl⟩ := Token.exists_receive h hcounted now fraction
    have hexpires : (token.expiresAt : Int) = now + claims.span := by
      rw [Token.expiresAt, hreceivedAt, ← hlifetime]
      exact Int.natCast_add _ _
    have hlater : now < token.expiresAt := Int.ofNat_lt.mp (by rw [hexpires]; omega)
    exact ⟨token, hreceive, htext, hclaims, hexpires, hlater, Token.isExpired_eq_false_iff.mpr hlater⟩
  refine ⟨⟨fun hnone => Int.not_le.mp fun hmost => ?_, fun hmore => ?_⟩, hreceived⟩
  · obtain ⟨token, hreceive, -⟩ := hreceived hmost
    rw [hnone] at hreceive
    cases hreceive
  · refine Token.receive_of_none h (Option.eq_none_iff_forall_ne_some.mpr fun lifetime hlifetime => ?_) _ _
    exact Int.not_le.mpr hmore ((Claims.lifetime?_eq_some_iff_of_lt hless).mp hlifetime).1

theorem Claims.ofToken_of_toOption {text : String} {claims : Claims}
    (h : (ofToken text).toOption = some claims) : ofToken text = .ok claims := by
  cases hread : ofToken text with
  | error fault =>
      rw [hread] at h
      cases h
  | ok given =>
      rw [hread] at h
      obtain rfl : given = claims := Option.some.inj h
      rfl

/-- A token with the longest lifetime that can be counted, all of it before the count of seconds begins. -/
def longestText : String := "e30.eyJpYXQiOi05MjIzMzcyMDM2ODU0Nzc1LCJleHAiOjB9.sig"

/-- A token that is valid from the least to the greatest number of seconds. -/
def widestText : String :=
  "e30.eyJpYXQiOi05MjIzMzcyMDM2ODU0Nzc1ODA4LCJleHAiOjkyMjMzNzIwMzY4NTQ3NzU4MDd9.sig"

/-- The longest lifetime is exact, and of the widest token already the seconds are too many. -/
theorem longest_token_lifetime :
    ∃ longest widest, Claims.ofToken longestText = .ok longest ∧ Claims.ofToken widestText = .ok widest ∧
      longest.span = 9223372036854775000 ∧ longest.lifetime? = some 9223372036854775000 ∧
      widest.span = (UInt64.size - 1) * 1000 ∧ widest.lifetime? = none ∧
      ∀ now fraction, Token.receive widestText now fraction = none ∧
        ∃ token, Token.receive longestText now fraction = some (.ok token) ∧
          (token.expiresAt : Int) = now + 9223372036854775000 ∧ token.isExpired now = false := by
  have hlongest : Claims.ofToken longestText = .ok ⟨-9223372036854775, 0⟩ :=
    Claims.ofToken_of_toOption (by decide +kernel)
  have hwidest : Claims.ofToken widestText = .ok ⟨Int64.minValue, Int64.maxValue⟩ :=
    Claims.ofToken_of_toOption (by decide +kernel)
  obtain ⟨-, hcounted, hlasts⟩ := lifetime_exact_iff hlongest
  obtain ⟨-, -, hbreaks⟩ := lifetime_exact_iff hwidest
  refine ⟨_, _, hlongest, hwidest, by decide, (hcounted _).mpr (by decide), by decide, by decide,
    fun now fraction => ⟨(hbreaks now fraction).1.mpr (by decide), ?_⟩⟩
  obtain ⟨token, hreceive, -, -, hexpires, -, hvalid⟩ := (hlasts now fraction).2 (by decide)
  exact ⟨token, hreceive, hexpires, hvalid⟩

/-- A token that is valid for `2 ^ 61` seconds. -/
def longText : String := "e30.eyJpYXQiOjAsImV4cCI6MjMwNTg0MzAwOTIxMzY5Mzk1Mn0.sig"

/-- The claims of such a token are accepted, yet its lifetime cannot be counted, and whoever receives it breaks
down. -/
theorem long_token_breaks_receiver :
    ∃ claims, Claims.ofToken longText = .ok claims ∧ claims.issuedAt < claims.expiresAt ∧
      claims.lifetime? = none ∧ ∀ now fraction, Token.receive longText now fraction = none := by
  have hread : Claims.ofToken longText = .ok ⟨0, 2305843009213693952⟩ :=
    Claims.ofToken_of_toOption (by decide +kernel)
  exact ⟨_, hread, by decide, by decide, Token.receive_of_none hread (by decide)⟩

end RecordGateway.Credential
