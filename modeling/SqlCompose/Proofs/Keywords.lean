import Mathlib.Data.List.Infix
import SqlCompose.Proofs.Casing

namespace SqlCompose.Text

def UpperRun.lower? (code : Nat) (run : UpperRun) : Option Nat :=
  if run.upper ≤ code ∧ code < run.upper + run.count * run.step ∧ (code - run.upper) % run.step = 0 then
    some (run.first + (code - run.upper))
  else none

theorem UpperRun.lower?_of_find? {n code : Nat} {run : UpperRun} (found : run.find? n = some code) :
    run.lower? code = some n := by
  unfold find? at found
  split at found
  · obtain ⟨first, last, whole⟩ := ‹_ ∧ _›
    cases found
    have back : run.upper + (n - run.first) - run.upper = n - run.first := by omega
    rw [lower?, back, if_pos ⟨by omega, by omega, whole⟩, Option.some.injEq]
    omega
  · cases found

def spellings (d : Char) : List Char := d :: (upperRuns.filterMap (UpperRun.lower? d.toNat)).map Char.ofNat

theorem mem_spellings {c d : Char} (upper : upperChar c = [d]) : c ∈ spellings d := by
  have longer : ∀ e ∈ upperExpansions, e.2.length ≠ 1 := by decide +kernel
  unfold upperChar at upper
  split at upper
  case h_1 codes found =>
    obtain ⟨front, back, whole, _⟩ := List.lookup_eq_some_iff.mp found
    have listed : (c.toNat, codes) ∈ upperExpansions := whole ▸ List.mem_append_right _ (List.mem_cons_self ..)
    have single := congrArg List.length upper
    rw [List.length_map] at single
    exact absurd single (longer _ listed)
  case h_2 =>
    split at upper
    case h_1 code found =>
      obtain ⟨run, listed, reads⟩ := List.exists_of_findSome?_eq_some found
      have known : code ∈ upperCodes :=
        List.mem_append_right _ (List.mem_flatMap.mpr ⟨run, listed, (UpperRun.find?_eq_some reads).2⟩)
      have is : d.toNat = code := by
        rw [← (List.cons.inj upper).1, Char.ofNat, dif_pos (upperCodes_valid code known)]
        rfl
      refine List.mem_cons_of_mem _ (List.mem_map.mpr ⟨c.toNat, ?_, c.ofNat_toNat⟩)
      refine List.mem_filterMap.mpr ⟨run, listed, ?_⟩
      rw [is]
      exact UpperRun.lower?_of_find? reads
    case h_2 => exact (List.cons.inj upper).1 ▸ List.mem_cons_self ..

def fits : List (List Char) → List Char → Bool
  | [], _ => true
  | _ :: _, [] => false
  | place :: places, c :: rest => place.contains c && fits places rest

-- A word in capitals, no part of which is written by a character that becomes several in upper case.
structure Keyword (word : List Char) : Prop where
  capital : ∀ d ∈ word, ∀ c ∈ spellings d, upperChar c = [d]
  unexpanded : ∀ part ∈ word.tails, part ≠ [] → ∀ e ∈ upperExpansions,
    ¬ e.2.map Char.ofNat <+: part ∧ ¬ part <+: e.2.map Char.ofNat

instance (word : List Char) : Decidable (Keyword word) :=
  have : ∀ d, Decidable (∀ c ∈ spellings d, upperChar c = [d]) := fun _ => List.decidableBAll _ _
  have : Decidable (∀ d ∈ word, ∀ c ∈ spellings d, upperChar c = [d]) := List.decidableBAll _ _
  decidable_of_iff (_ ∧ _) ⟨fun ⟨capital, unexpanded⟩ => ⟨capital, unexpanded⟩, fun keyword =>
    ⟨keyword.capital, keyword.unexpanded⟩⟩

theorem Keyword.tail {d : Char} {word : List Char} (keyword : Keyword (d :: word)) : Keyword word where
  capital e member := keyword.capital e (List.mem_cons_of_mem _ member)
  unexpanded part member := keyword.unexpanded part (List.mem_cons_of_mem _ member)

theorem Keyword.begins_iff {c d : Char} {word rest : List Char} (keyword : Keyword (d :: word)) :
    d :: word <+: upperChar c ++ rest ↔ upperChar c = [d] ∧ word <+: rest := by
  constructor
  case mpr =>
    rintro ⟨single, later⟩
    rw [single]
    exact List.cons_prefix_cons.mpr ⟨rfl, later⟩
  case mp =>
    intro begins
    have one {e : Char} (single : upperChar c = [e]) : upperChar c = [d] ∧ word <+: rest := by
      rw [single] at begins ⊢
      obtain ⟨rfl, later⟩ := List.cons_prefix_cons.mp begins
      exact ⟨rfl, later⟩
    have form := upperChar_form c
    generalize is : upperChar c = forms at form
    cases form with
    | expanded listed =>
      have whole : d :: word ∈ (d :: word).tails := (List.mem_tails _ _).mpr List.suffix_rfl
      obtain ⟨longer, shorter⟩ := keyword.unexpanded _ whole (List.cons_ne_nil _ _) _ listed
      rw [is] at begins
      rcases List.prefix_or_prefix_of_prefix begins (List.prefix_append ..) with inside | around
      · exact absurd inside shorter
      · exact absurd around longer
    | shifted | kept => exact is ▸ one is

theorem Keyword.upper_begins_iff {word : List Char} (keyword : Keyword word) (s : List Char) :
    word <+: s.flatMap upperChar ↔ fits (word.map spellings) s = true := by
  induction word generalizing s with
  | nil => simp [fits]
  | cons d word ih =>
    cases s with
    | nil => simp [fits]
    | cons c s =>
      have first : c ∈ spellings d ↔ upperChar c = [d] :=
        ⟨keyword.capital d (List.mem_cons_self ..) c, mem_spellings⟩
      rw [List.map_cons, fits, Bool.and_eq_true, List.contains_iff_mem, first, ← ih keyword.tail, List.flatMap_cons,
        keyword.begins_iff]

end SqlCompose.Text
