import Mathlib.Data.List.Basic
import SqlCompose.Text.Blank
import SqlCompose.Text.Upper

namespace SqlCompose.Text

-- A finite set of numbers as the bits of one.
def bitset : List Nat → Nat
  | [] => 0
  | n :: rest => 1 <<< n ||| bitset rest

theorem testBit_bitset {n : Nat} {ns : List Nat} (member : n ∈ ns) : (bitset ns).testBit n = true := by
  induction ns with
  | nil => cases member
  | cons m rest ih =>
    rw [bitset, Nat.testBit_or, Bool.or_eq_true]
    rcases List.mem_cons.mp member with rfl | later
    · exact .inl (by simp [Nat.one_shiftLeft])
    · exact .inr (ih later)

theorem not_mem_of_bitset {ns ms : List Nat} (apart : bitset ns &&& bitset ms = 0) {n : Nat} (member : n ∈ ns) :
    n ∉ ms := by
  intro other
  have both : (bitset ns &&& bitset ms).testBit n = true := by
    rw [Nat.testBit_and, testBit_bitset member, testBit_bitset other, Bool.and_self]
  rw [apart, Nat.zero_testBit] at both
  cases both

def UpperRun.lowers (run : UpperRun) : List Nat := (List.range run.count).map fun i => run.first + i * run.step

def UpperRun.uppers (run : UpperRun) : List Nat := (List.range run.count).map fun i => run.upper + i * run.step

theorem UpperRun.find?_eq_some {n code : Nat} {run : UpperRun} (found : run.find? n = some code) :
    n ∈ run.lowers ∧ code ∈ run.uppers := by
  unfold find? at found
  split at found
  · obtain ⟨first, last, whole⟩ := ‹_ ∧ _›
    cases found
    let i := (n - run.first) / run.step
    have steps : i * run.step = n - run.first := Nat.div_mul_cancel (Nat.dvd_of_mod_eq_zero whole)
    have bound : i < run.count := by
      refine Nat.div_lt_of_lt_mul ?_
      rw [Nat.mul_comm]
      omega
    refine ⟨List.mem_map.mpr ⟨i, List.mem_range.mpr bound, ?_⟩, List.mem_map.mpr ⟨i, List.mem_range.mpr bound, ?_⟩⟩ <;>
      omega
  · cases found

def lowerCodes : List Nat := upperExpansions.map Prod.fst ++ upperRuns.flatMap UpperRun.lowers

def upperCodes : List Nat := upperExpansions.flatMap Prod.snd ++ upperRuns.flatMap UpperRun.uppers

theorem upperCodes_apart {n : Nat} (upper : n ∈ upperCodes) : n ∉ lowerCodes :=
  not_mem_of_bitset (by decide +kernel) upper

theorem upperCodes_valid : ∀ n ∈ upperCodes, n.isValidChar := by decide +kernel

-- Where the upper case of a character comes from.
inductive UpperForm (c : Char) : List Char → Prop where
  | expanded (listed : (c.toNat, codes) ∈ upperExpansions) : UpperForm c (codes.map Char.ofNat)
  | shifted (lower : c.toNat ∈ upperRuns.flatMap UpperRun.lowers) (upper : code ∈ upperRuns.flatMap UpperRun.uppers) :
      UpperForm c [Char.ofNat code]
  | kept : UpperForm c [c]

theorem upperChar_form (c : Char) : UpperForm c (upperChar c) := by
  unfold upperChar
  split
  case h_1 codes found =>
    obtain ⟨front, back, whole, _⟩ := List.lookup_eq_some_iff.mp found
    exact .expanded (whole ▸ List.mem_append_right _ (List.mem_cons_self ..))
  case h_2 =>
    split
    case h_1 code found =>
      obtain ⟨run, listed, reads⟩ := List.exists_of_findSome?_eq_some found
      obtain ⟨lower, upper⟩ := UpperRun.find?_eq_some reads
      exact .shifted (List.mem_flatMap.mpr ⟨run, listed, lower⟩) (List.mem_flatMap.mpr ⟨run, listed, upper⟩)
    case h_2 => exact .kept

theorem upperChar_eq_self {c : Char} (absent : c.toNat ∉ lowerCodes) : upperChar c = [c] := by
  have form := upperChar_form c
  generalize upperChar c = forms at form ⊢
  cases form with
  | expanded listed => exact absurd (List.mem_append_left _ (List.mem_map_of_mem listed)) absent
  | shifted lower => exact absurd (List.mem_append_right _ lower) absent
  | kept => rfl

theorem toNat_ofNat_upperCodes {code : Nat} (listed : code ∈ upperCodes) : (Char.ofNat code).toNat ∈ upperCodes := by
  rw [Char.ofNat, dif_pos (upperCodes_valid code listed)]
  exact listed

theorem upperChar_upper (c : Char) : upperChar c = [c] ∨ ∀ d ∈ upperChar c, d.toNat ∈ upperCodes := by
  have form := upperChar_form c
  generalize upperChar c = forms at form ⊢
  cases form with
  | expanded listed =>
    refine .inr (List.forall_mem_map.mpr fun code there => ?_)
    exact toNat_ofNat_upperCodes (List.mem_append_left _ (List.mem_flatMap.mpr ⟨_, listed, there⟩))
  | shifted _ upper =>
    exact .inr (List.forall_mem_singleton.mpr (toNat_ofNat_upperCodes (List.mem_append_right _ upper)))
  | kept => exact .inl rfl

theorem upperChar_upperChar {c d : Char} (member : d ∈ upperChar c) : upperChar d = [d] := by
  rcases upperChar_upper c with same | upper
  · rw [same, List.mem_singleton] at member
    rw [member, same]
  · exact upperChar_eq_self (upperCodes_apart (upper d member))

theorem toUpper_append (s t : String) : toUpper (s ++ t) = toUpper s ++ toUpper t := by
  rw [← String.toList_inj]
  simp only [toList_toUpper, String.toList_append, List.flatMap_append]

theorem toUpper_toUpper (s : String) : toUpper (toUpper s) = toUpper s := by
  have again (c : Char) : (upperChar c).flatMap upperChar = upperChar c := by
    rw [List.flatMap_congr fun d member => upperChar_upperChar member, List.flatMap_singleton']
  rw [← String.toList_inj]
  simp only [toList_toUpper, List.flatMap_assoc, again]

theorem upperChar_cases {c d : Char} (member : d ∈ upperChar c) : d = c ∨ d.toNat ∈ upperCodes := by
  rcases upperChar_upper c with same | upper
  · rw [same, List.mem_singleton] at member
    exact .inl member
  · exact .inr (upper d member)

theorem upperChar_blank {c d : Char} (member : d ∈ upperChar c) (blank : isBlank d = true) : d = c := by
  have solid : ∀ n ∈ upperCodes, isBlank (Char.ofNat n) = false := by decide +kernel
  refine (upperChar_cases member).resolve_right fun listed => ?_
  have notBlank := solid d.toNat listed
  rw [Char.ofNat_toNat, blank] at notBlank
  cases notBlank

theorem upperChar_full (c : Char) : upperChar c ≠ [] := by
  have expansions : ∀ e ∈ upperExpansions, e.2 ≠ [] := by decide +kernel
  have form := upperChar_form c
  generalize upperChar c = forms at form ⊢
  cases form with
  | expanded listed => exact mt List.map_eq_nil_iff.mp (expansions _ listed)
  | shifted | kept => exact List.cons_ne_nil _ _

theorem head?_toUpper {s : String} (solid : ∀ c ∈ s.toList.head?, isBlank c = false) :
    ∀ d ∈ (toUpper s).toList.head?, isBlank d = false := by
  intro d first
  rw [toList_toUpper] at first
  cases is : s.toList with
  | nil => simp [is] at first
  | cons c rest =>
    rw [is, List.flatMap_cons, List.head?_append_of_ne_nil _ (upperChar_full c)] at first
    refine Bool.eq_false_iff.mpr fun blank => ?_
    have same := upperChar_blank (List.mem_of_mem_head? first) blank
    rw [same, solid c (by simp [is])] at blank
    cases blank

end SqlCompose.Text
