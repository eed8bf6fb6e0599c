import Mathlib.Data.Nat.Digits.Lemmas

/-!
# Numerals

The digits of a number to a base, the most significant first and at least one. The numeral of a
number is that of its quotient, followed by its remainder, which is how programs write it; reading
one digit after the other gives the number back.
-/
namespace Lib

def numeral (b n : Nat) : List Nat := if n = 0 then [0] else (Nat.digits b n).reverse

def ofNumeral (b : Nat) (ds : List Nat) : Nat := ds.foldl (fun n d => n * b + d) 0

section Numerals

variable {b n : Nat}

theorem numeral_lt (h : n < b) : numeral b n = [n] := by
  rw [numeral]
  split_ifs with hn
  · rw [hn]
  · rw [Nat.digits_of_lt b n hn h, List.reverse_singleton]

theorem numeral_ge (hb : 2 ≤ b) (h : b ≤ n) : numeral b n = numeral b (n / b) ++ [n % b] := by
  have hn : n ≠ 0 := by omega
  have hdiv : n / b ≠ 0 := (Nat.div_pos h (by omega)).ne'
  rw [numeral, numeral, if_neg hn, if_neg hdiv, Nat.digits_def' (by omega) (Nat.pos_of_ne_zero hn),
    List.reverse_cons]

theorem numeral_ne_nil (b n : Nat) : numeral b n ≠ [] := by
  rw [numeral]
  split_ifs with hn
  · exact List.cons_ne_nil _ _
  · exact List.reverse_ne_nil_iff.mpr (Nat.digits_ne_nil_iff_ne_zero.mpr hn)

theorem numeral_digit (hb : 2 ≤ b) {d : Nat} (hd : d ∈ numeral b n) : d < b := by
  rw [numeral] at hd
  split_ifs at hd with hn
  · obtain rfl := List.mem_singleton.mp hd
    omega
  · exact Nat.digits_lt_base (by omega) (List.mem_reverse.mp hd)

theorem numeral_head (hn : n ≠ 0) : (numeral b n).head? ≠ some 0 := by
  rw [numeral, if_neg hn, List.head?_reverse, List.getLast?_eq_getLast_of_ne_nil
    (Nat.digits_ne_nil_iff_ne_zero.mpr hn)]
  intro h
  exact Nat.getLast_digit_ne_zero b hn (Option.some.inj h)

theorem ofNumeral_concat (b : Nat) (ds : List Nat) (d : Nat) :
    ofNumeral b (ds ++ [d]) = ofNumeral b ds * b + d := by
  rw [ofNumeral, List.foldl_append]
  rfl

theorem ofNumeral_numeral (hb : 2 ≤ b) (n : Nat) : ofNumeral b (numeral b n) = n := by
  induction n using Nat.strong_induction_on with
  | _ n ih =>
  by_cases h : n < b
  · rw [numeral_lt h, ofNumeral]
    simp
  · have hlt : n / b < n := Nat.div_lt_self (by omega) (by omega)
    rw [numeral_ge hb (by omega), ofNumeral_concat, ih _ hlt, Nat.mul_comm]
    exact Nat.div_add_mod n b

theorem numeral_length_le (hb : 2 ≤ b) {k : Nat} (hk : 0 < k) (h : n < b ^ k) :
    (numeral b n).length ≤ k := by
  rw [numeral]
  split_ifs
  · exact hk
  · rw [List.length_reverse]
    exact (Nat.digits_length_le_iff (by omega) n).mpr h

/-- A program that writes the upper digits of a number before the last one, and something in front
of the first, writes the numeral. -/
theorem writes_numeral {γ : Type*} (hb : 2 ≤ b) {P : Nat → Prop} (hP : ∀ n, P n → b ≤ n → P (n / b))
    {f : Int → Nat → List γ} {p : Int → List γ} {c : Nat → γ}
    (hlast : ∀ width n, P n → n < b → f width n = p (width - 1) ++ [c n])
    (hupper : ∀ width n, P n → b ≤ n → f width n = f (width - 1) (n / b) ++ [c (n % b)])
    (width : Int) (hn : P n) :
    f width n = p (width - (numeral b n).length) ++ (numeral b n).map c := by
  induction n using Nat.strong_induction_on generalizing width with
  | _ n ih =>
  by_cases h : n < b
  · rw [hlast width n hn h, numeral_lt h]
    rfl
  · have hge : b ≤ n := Nat.le_of_not_lt h
    have hlt : n / b < n := Nat.div_lt_self (by omega) (by omega)
    have hlength : width - 1 - ((numeral b (n / b)).length : Int) =
        width - ((numeral b n).length : Int) := by
      rw [numeral_ge hb hge, List.length_append, List.length_singleton, Nat.cast_add]
      omega
    rw [hupper width n hn hge, ih _ hlt (width - 1) (hP n hn hge), hlength]
    conv_rhs => rw [numeral_ge hb hge]
    rw [List.map_append, ← List.append_assoc, numeral_ge hb hge]
    rfl

end Numerals

end Lib
