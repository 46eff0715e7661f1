import SyntheticsOperator.Support.GoStrings

/-!
# Base32

`base32.StdEncoding` without padding: five bytes become eight digits, each of five
bits, and a shorter last group as many digits as its bits need.
-/

namespace SyntheticsOperator.Support.Base32

/-- The alphabet: `A` to `Z`, then `2` to `7`. -/
def digit (n : Nat) : UInt8 := UInt8.ofNat (if n < 26 then 65 + n else 24 + n)

/-- The digits of at most five bytes, filled up with zero bits. -/
def group (bytes : List UInt8) : GoString :=
  let bits := (bytes ++ List.replicate (5 - bytes.length) 0).foldl
    (fun n (byte : UInt8) => 256 * n + byte.toNat) 0
  ((List.range 8).map fun i => digit (bits / 32 ^ (7 - i) % 32)).take ((8 * bytes.length + 4) / 5)

def encode : List UInt8 → GoString
  | [] => []
  | a :: b :: c :: d :: e :: rest => group [a, b, c, d, e] ++ encode rest
  | last => group last

theorem exists_digit_of_mem_group {bytes : List UInt8} {c : UInt8} (h : c ∈ group bytes) :
    ∃ n < 32, c = digit n := by
  obtain ⟨i, -, rfl⟩ := List.mem_map.mp (List.mem_of_mem_take h)
  exact ⟨_, Nat.mod_lt _ (by decide), rfl⟩

theorem exists_digit_of_mem_encode {bytes : List UInt8} {c : UInt8} (h : c ∈ encode bytes) :
    ∃ n < 32, c = digit n := by
  induction bytes using encode.induct with
  | case1 => cases h
  | case2 a b c' d e rest ih =>
      rw [encode] at h
      rcases List.mem_append.mp h with h | h
      · exact exists_digit_of_mem_group h
      · exact ih h
  | case3 last hnil hfive =>
      rw [encode] at h
      · exact exists_digit_of_mem_group h
      · exact hnil
      · exact hfive

/-- Whole groups fill all their digits. -/
theorem length_encode (k : Nat) {bytes : List UInt8} (h : bytes.length = 5 * k) :
    (encode bytes).length = 8 * k := by
  induction k generalizing bytes with
  | zero =>
      rw [List.length_eq_zero_iff.mp h]
      rfl
  | succ k ih =>
      match bytes, h with
      | a :: b :: c :: d :: e :: rest, h =>
          have hrest : rest.length = 5 * k := by
            simp only [List.length_cons] at h
            omega
          have hgroup : (group [a, b, c, d, e]).length = 8 := by
            simp [group]
          rw [encode, List.length_append, hgroup, ih hrest]
          omega

/-! ## Different bytes -/

/-- Digits determine a number that has no more of them. -/
theorem eq_of_digits_eq {b k m n : Nat} (hm : m < b ^ k) (hn : n < b ^ k)
    (h : ∀ i < k, m / b ^ i % b = n / b ^ i % b) : m = n := by
  induction k generalizing m n with
  | zero =>
      rw [Nat.pow_zero] at hm hn
      omega
  | succ k ih =>
      have hlast : m % b = n % b := by
        have hzero := h 0 (Nat.succ_pos k)
        rwa [Nat.pow_zero, Nat.div_one, Nat.div_one] at hzero
      have hrest : m / b = n / b := by
        apply ih
        · exact Nat.div_lt_of_lt_mul (by rwa [Nat.mul_comm, ← Nat.pow_succ])
        · exact Nat.div_lt_of_lt_mul (by rwa [Nat.mul_comm, ← Nat.pow_succ])
        · intro i hi
          have hnext := h (i + 1) (by omega)
          rwa [Nat.pow_succ, Nat.mul_comm, ← Nat.div_div_eq_div_mul,
            ← Nat.div_div_eq_div_mul] at hnext
      rw [← Nat.div_add_mod m b, ← Nat.div_add_mod n b, hlast, hrest]

/-- The number whose digits `group` writes for five bytes. -/
def number (a b c d e : UInt8) : Nat :=
  256 * (256 * (256 * (256 * a.toNat + b.toNat) + c.toNat) + d.toNat) + e.toNat

theorem number_lt (a b c d e : UInt8) : number a b c d e < 32 ^ 8 := by
  have ha := a.toNat_lt
  have hb := b.toNat_lt
  have hc := c.toNat_lt
  have hd := d.toNat_lt
  have he := e.toNat_lt
  unfold number
  omega

/-- The last byte is a remainder, and the others are those of the quotient. -/
theorem number_step_injective {m n : Nat} {x y : UInt8}
    (h : 256 * m + x.toNat = 256 * n + y.toNat) : m = n ∧ x = y := by
  have hx := x.toNat_lt
  have hy := y.toNat_lt
  exact ⟨by omega, UInt8.toNat_inj.mp (by omega)⟩

theorem number_injective {a b c d e a' b' c' d' e' : UInt8}
    (h : number a b c d e = number a' b' c' d' e') :
    [a, b, c, d, e] = [a', b', c', d', e'] := by
  obtain ⟨h, he⟩ := number_step_injective h
  obtain ⟨h, hd⟩ := number_step_injective h
  obtain ⟨h, hc⟩ := number_step_injective h
  obtain ⟨ha, hb⟩ := number_step_injective h
  rw [UInt8.toNat_inj.mp ha, hb, hc, hd, he]

theorem group_five (a b c d e : UInt8) :
    group [a, b, c, d, e] =
      (List.range 8).map fun i => digit (number a b c d e / 32 ^ (7 - i) % 32) := by
  simp [group, number, List.take_of_length_le]

section Injective

-- an encoding of the digits, such as their lower case
variable {f : UInt8 → UInt8} (hf : ∀ m < 32, ∀ n < 32, f (digit m) = f (digit n) → m = n)

include hf

theorem group_five_injective {a b c d e a' b' c' d' e' : UInt8}
    (h : (group [a, b, c, d, e]).map f = (group [a', b', c', d', e']).map f) :
    [a, b, c, d, e] = [a', b', c', d', e'] := by
  apply number_injective
  apply eq_of_digits_eq (number_lt _ _ _ _ _) (number_lt _ _ _ _ _)
  intro i hi
  rw [group_five, group_five, List.map_map, List.map_map, List.map_inj_left] at h
  have hdigit := h (7 - i) (List.mem_range.mpr (by omega))
  rw [Function.comp_apply, Function.comp_apply, Nat.sub_sub_self (by omega)] at hdigit
  exact hf _ (Nat.mod_lt _ (by decide)) _ (Nat.mod_lt _ (by decide)) hdigit

/-- Different bytes, in whole groups, have different digits. -/
theorem encode_injective (k : Nat) {x y : List UInt8} (hx : x.length = 5 * k)
    (hy : y.length = 5 * k) (h : (encode x).map f = (encode y).map f) : x = y := by
  induction k generalizing x y with
  | zero => rw [List.length_eq_zero_iff.mp hx, List.length_eq_zero_iff.mp hy]
  | succ k ih =>
      match x, hx, y, hy with
      | a :: b :: c :: d :: e :: x, hx, a' :: b' :: c' :: d' :: e' :: y, hy =>
          simp only [List.length_cons] at hx hy
          have hlength : ((group [a, b, c, d, e]).map f).length =
              ((group [a', b', c', d', e']).map f).length := by
            simp [group_five]
          rw [encode, encode, List.map_append, List.map_append] at h
          obtain ⟨hgroup, hrest⟩ := List.append_inj h hlength
          have hhead := group_five_injective hf hgroup
          have htail : x = y := ih (by omega) (by omega) hrest
          calc a :: b :: c :: d :: e :: x = [a, b, c, d, e] ++ x := rfl
            _ = [a', b', c', d', e'] ++ y := by rw [hhead, htail]

end Injective

end SyntheticsOperator.Support.Base32
