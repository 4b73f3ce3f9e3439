import Mathlib.Data.List.DropRight
import SqlCompose.Text.Blank
import SqlCompose.Text.Listing

namespace SqlCompose.Text

variable {s t : String}

theorem trimStart_of_lead (lead : ∀ c ∈ s.toList.head?, isBlank c = false) : trimStart s = s := by
  rw [← String.toList_inj, toList_trimStart]
  cases is : s.toList with
  | nil => rfl
  | cons c rest => exact List.dropWhile_cons_of_neg (by simp [lead c (by simp [is])])

theorem trimStart_of_head {c : Char} {rest : List Char} (solid : isBlank c = false) (is : s.toList = c :: rest) :
    trimStart s = s := trimStart_of_lead (by simpa [is] using solid)

theorem trimStart_lead (s : String) : ∀ c ∈ (trimStart s).toList.head?, isBlank c = false := by
  intro c first
  have solid := List.head?_dropWhile_not isBlank s.toList
  rw [← toList_trimStart, Option.mem_def.mp first] at solid
  simpa using solid

theorem trimStart_eq_empty_iff : trimStart s = "" ↔ ∀ c ∈ s.toList, isBlank c = true := by
  rw [← String.toList_eq_nil_iff, toList_trimStart, List.dropWhile_eq_nil_iff]

theorem trimStart_append (solid : trimStart t = t) : trimStart (s ++ t) = trimStart s ++ t := by
  have kept : t.toList.dropWhile isBlank = t.toList := by rw [← toList_trimStart, solid]
  rw [← String.toList_inj, toList_trimStart, String.toList_append, List.dropWhile_append, String.toList_append,
    toList_trimStart, kept]
  split
  · rename_i blank
    rw [List.isEmpty_iff.mp blank, List.nil_append]
  · rfl

theorem trimStart_joined (items : List String) :
    trimStart (joined ", " items) = joined ", " (items.modifyHead trimStart) := by
  match items with
  | [] => rfl
  | [item] => rfl
  | item :: next :: rest =>
    have comma : trimStart (", " ++ joined ", " (next :: rest)) = ", " ++ joined ", " (next :: rest) :=
      trimStart_of_head (c := ',') (by decide) (by rw [String.toList_append]; rfl)
    show trimStart (item ++ ", " ++ joined ", " (next :: rest)) = trimStart item ++ ", " ++ joined ", " (next :: rest)
    rw [String.append_assoc, trimStart_append comma, ← String.append_assoc]

theorem trimStart_listing (items : List String) :
    trimStart (listing "," items) = joined ", " (items.modifyHead trimStart) := by
  cases items with
  | nil => rfl
  | cons item rest =>
    have blank : trimStart (" " ++ joined ", " (item :: rest)) = trimStart (joined ", " (item :: rest)) := by
      rw [trimStart, String.toList_append]
      rfl
    exact blank.trans (trimStart_joined _)

structure Trimmed (s : String) : Prop where
  lead : ∀ c ∈ s.toList.head?, isBlank c = false
  trail : ∀ c ∈ s.toList.getLast?, isBlank c = false

theorem toList_trim (s : String) : (trim s).toList = (s.toList.dropWhile isBlank).rdropWhile isBlank := by
  simp [trim, trimEnd, trimStart, List.rdropWhile]

theorem trim_trimmed (s : String) : Trimmed (trim s) where
  lead c first := by
    obtain ⟨rest, is⟩ := List.head?_eq_some_iff.mp first
    obtain ⟨more, whole⟩ := List.rdropWhile_prefix isBlank (s.toList.dropWhile isBlank)
    refine trimStart_lead s c ?_
    rw [toList_trimStart, ← whole, ← toList_trim, is]
    rfl
  trail c last := by
    have solid := List.head?_dropWhile_not isBlank (s.toList.dropWhile isBlank).reverse
    rw [toList_trim, List.rdropWhile, List.getLast?_reverse] at last
    rw [last] at solid
    simpa using solid

theorem Trimmed.trim_eq (trimmed : Trimmed s) : trim s = s := by
  have lead : s.toList.dropWhile isBlank = s.toList := by rw [← toList_trimStart, trimStart_of_lead trimmed.lead]
  rw [← String.toList_inj, toList_trim, lead, List.rdropWhile_eq_self_iff]
  intro remains
  simp [trimmed.trail _ (List.getLast?_eq_some_getLast remains)]

theorem trim_trim (s : String) : trim (trim s) = trim s := (trim_trimmed s).trim_eq

end SqlCompose.Text
