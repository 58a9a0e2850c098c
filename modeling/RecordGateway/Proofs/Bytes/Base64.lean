import RecordGateway.Bytes.Base64

/-!
Base 64 text of bytes. Under an alphabet whose symbols are told apart, bytes come back from their symbols
(`decodeChars?_encodeChars`). What is written is a run of symbols, filled with `=` up to a whole number of
groups of four (`exists_symbols`), so the filling can be left out and put back.
-/

namespace RecordGateway.Base64

/-- The symbols of the alphabet are told apart from each other and from the filling. -/
structure Alphabet.Distinct (a : Alphabet) : Prop where
  value?_symbol : ∀ n < 64, a.value? (a.symbol n) = some n
  symbol_ne : ∀ n < 64, a.symbol n ≠ '='

theorem urlSafe_distinct : Alphabet.urlSafe.Distinct := by
  constructor <;> decide

/-! ### Decoding -/

/-- The first byte of three, from the symbols that carry its bits. -/
theorem first_byte (x : UInt8) {high : Nat} (hhigh : high < 16) :
    (x.toNat / 4 * 4 + (x.toNat % 4 * 16 + high) / 16).toUInt8 = x := by
  have hvalue : x.toNat / 4 * 4 + (x.toNat % 4 * 16 + high) / 16 = x.toNat := by omega
  rw [hvalue]
  exact UInt8.ofNat_toNat

theorem second_byte (x y : UInt8) {high : Nat} (hhigh : high < 4) :
    ((x.toNat % 4 * 16 + y.toNat / 16) % 16 * 16 + (y.toNat % 16 * 4 + high) / 4).toUInt8 = y := by
  have hy := y.toNat_lt
  have hvalue : (x.toNat % 4 * 16 + y.toNat / 16) % 16 * 16 + (y.toNat % 16 * 4 + high) / 4 =
      y.toNat := by omega
  rw [hvalue]
  exact UInt8.ofNat_toNat

theorem third_byte (y z : UInt8) :
    ((y.toNat % 16 * 4 + z.toNat / 64) % 4 * 64 + z.toNat % 64).toUInt8 = z := by
  have hz := z.toNat_lt
  have hvalue : (y.toNat % 16 * 4 + z.toNat / 64) % 4 * 64 + z.toNat % 64 = z.toNat := by omega
  rw [hvalue]
  exact UInt8.ofNat_toNat

/-- Bytes come back from their symbols. The last group is the one that may be filled. -/
theorem decodeChars?_encodeChars {a : Alphabet} (ha : a.Distinct) (bytes : Bytes) :
    decodeChars? a (encodeChars a bytes) = some bytes := by
  fun_induction encodeChars a bytes with
  | case1 => rfl
  | case2 x =>
      have hx := x.toNat_lt
      have hfirst := ha.value?_symbol (x.toNat / 4) (by omega)
      have hsecond := ha.value?_symbol (x.toNat % 4 * 16) (by omega)
      have hbyte : (x.toNat / 4 * 4 + x.toNat % 4 * 16 / 16).toUInt8 = x :=
        first_byte x (by decide : 0 < 16)
      have hrest : x.toNat % 4 * 16 % 16 = 0 := Nat.mul_mod_left _ _
      simp only [decodeChars?, decodeLast?, hfirst, hsecond, bind, Option.bind, hrest, hbyte, and_self,
        if_true, pure]
  | case3 x y =>
      have hx := x.toNat_lt
      have hy := y.toNat_lt
      have hfirst := ha.value?_symbol (x.toNat / 4) (by omega)
      have hsecond := ha.value?_symbol (x.toNat % 4 * 16 + y.toNat / 16) (by omega)
      have hthird := ha.value?_symbol (y.toNat % 16 * 4) (by omega)
      have hopen := ha.symbol_ne (y.toNat % 16 * 4) (by omega)
      have hfront := first_byte x (by omega : y.toNat / 16 < 16)
      have hback : ((x.toNat % 4 * 16 + y.toNat / 16) % 16 * 16 + y.toNat % 16 * 4 / 4).toUInt8 = y :=
        second_byte x y (by decide : 0 < 4)
      have hrest : y.toNat % 16 * 4 % 4 = 0 := Nat.mul_mod_left _ _
      simp only [decodeChars?, decodeLast?, hfirst, hsecond, hthird, hopen, bind, Option.bind, hrest,
        hfront, hback, if_true, if_false, pure]
  | case4 x y z rest ih =>
      have hx := x.toNat_lt
      have hy := y.toNat_lt
      have hz := z.toNat_lt
      have hfirst := ha.value?_symbol (x.toNat / 4) (by omega)
      have hsecond := ha.value?_symbol (x.toNat % 4 * 16 + y.toNat / 16) (by omega)
      have hthird := ha.value?_symbol (y.toNat % 16 * 4 + z.toNat / 64) (by omega)
      have hfourth := ha.value?_symbol (z.toNat % 64) (by omega)
      have hfront := first_byte x (by omega : y.toNat / 16 < 16)
      have hmiddle := second_byte x y (by omega : z.toNat / 64 < 4)
      have hback := third_byte y z
      cases hrest : encodeChars a rest with
      | nil =>
          -- Nothing follows, so this is the last group, which is not filled.
          have hopen := ha.symbol_ne (y.toNat % 16 * 4 + z.toNat / 64) (by omega)
          have hclosed := ha.symbol_ne (z.toNat % 64) (by omega)
          rw [hrest] at ih
          obtain rfl := Option.some.inj ih
          simp only [decodeChars?, decodeLast?, hfirst, hsecond, hthird, hfourth, hopen, hclosed, bind,
            Option.bind, hfront, hmiddle, hback, if_false, pure, List.cons_append, List.nil_append]
      | cons c later =>
          rw [hrest] at ih
          simp only [decodeChars?, hfirst, hsecond, hthird, hfourth, ih, bind, Option.bind, hfront,
            hmiddle, hback, pure]

/-! ### Filling -/

/-- How many `=` fill so many symbols up to whole groups of four. -/
def filling (count : Nat) : Nat :=
  (4 - count % 4) % 4

theorem filling_add_four (count : Nat) : filling (count + 4) = filling count := by
  rw [filling, Nat.add_mod_right, filling]

/-- What is written is a run of symbols and what fills the last group. -/
theorem exists_symbols (a : Alphabet) (bytes : Bytes) :
    ∃ symbols, encodeChars a bytes = symbols ++ List.replicate (filling symbols.length) '=' ∧
      ∀ c ∈ symbols, ∃ n < 64, c = a.symbol n := by
  fun_induction encodeChars a bytes with
  | case1 => exact ⟨[], rfl, List.forall_mem_nil _⟩
  | case2 x =>
      have hx := x.toNat_lt
      refine ⟨[_, _], rfl, ?_⟩
      simp only [List.forall_mem_cons]
      exact ⟨⟨_, by omega, rfl⟩, ⟨_, by omega, rfl⟩, List.forall_mem_nil _⟩
  | case3 x y =>
      have hx := x.toNat_lt
      have hy := y.toNat_lt
      refine ⟨[_, _, _], rfl, ?_⟩
      simp only [List.forall_mem_cons]
      exact ⟨⟨_, by omega, rfl⟩, ⟨_, by omega, rfl⟩, ⟨_, by omega, rfl⟩, List.forall_mem_nil _⟩
  | case4 x y z rest ih =>
      have hx := x.toNat_lt
      have hy := y.toNat_lt
      have hz := z.toNat_lt
      obtain ⟨symbols, hsymbols, hall⟩ := ih
      refine ⟨a.symbol (x.toNat / 4) :: a.symbol (x.toNat % 4 * 16 + y.toNat / 16)
        :: a.symbol (y.toNat % 16 * 4 + z.toNat / 64) :: a.symbol (z.toNat % 64) :: symbols, ?_, ?_⟩
      · rw [hsymbols, List.length_cons, List.length_cons, List.length_cons, List.length_cons,
          filling_add_four]
        rfl
      · simp only [List.forall_mem_cons]
        exact ⟨⟨_, by omega, rfl⟩, ⟨_, by omega, rfl⟩, ⟨_, by omega, rfl⟩, ⟨_, by omega, rfl⟩, hall⟩

/-- What holds of all symbols and of the filling holds of all that is written. -/
theorem forall_mem_encodeChars {a : Alphabet} {holds : Char → Prop}
    (hsymbols : ∀ n < 64, holds (a.symbol n)) (hfilling : holds '=') (bytes : Bytes) :
    ∀ c ∈ encodeChars a bytes, holds c := by
  obtain ⟨symbols, hwritten, hall⟩ := exists_symbols a bytes
  rw [hwritten, List.forall_mem_append]
  constructor
  · intro c hc
    obtain ⟨n, hn, rfl⟩ := hall c hc
    exact hsymbols n hn
  · intro c hc
    obtain rfl := List.eq_of_mem_replicate hc
    exact hfilling

end RecordGateway.Base64
