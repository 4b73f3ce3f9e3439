import SqlCompose.Bind.Registry
import SqlCompose.Proofs.Occurrences

namespace SqlCompose

namespace Text

def replaceFrom (old new : List Char) : Nat → List Char → List Char
  | _, [] => []
  | skip + 1, _ :: rest => replaceFrom old new skip rest
  | 0, c :: rest =>
    if old <+: c :: rest then new ++ replaceFrom old new (old.length - 1) rest
    else c :: replaceFrom old new 0 rest

def replace (old new s : String) : String := .ofList (replaceFrom old.toList new.toList 0 s.toList)

variable {old new s rest : List Char}

theorem replaceFrom_drop (old new : List Char) (skip : Nat) (s : List Char) :
    replaceFrom old new skip s = replaceFrom old new 0 (s.drop skip) := by
  induction s generalizing skip with
  | nil => cases skip <;> rfl
  | cons c rest ih =>
    cases skip with
    | zero => rfl
    | succ skip => exact ih skip

theorem replaceFrom_self (filled : old ≠ []) (new rest : List Char) :
    replaceFrom old new 0 (old ++ rest) = new ++ replaceFrom old new 0 rest := by
  cases old with
  | nil => exact absurd rfl filled
  | cons c old =>
    have here : c :: old <+: c :: (old ++ rest) := List.prefix_append (c :: old) rest
    rw [List.cons_append, replaceFrom, if_pos here, replaceFrom_drop]
    simp

theorem replaceFrom_other (apart : ∀ t, t <:+ s → t ≠ [] → ¬ old <+: t ++ rest) :
    replaceFrom old new 0 (s ++ rest) = s ++ replaceFrom old new 0 rest := by
  induction s with
  | nil => rfl
  | cons c s ih =>
    have here : ¬ old <+: c :: (s ++ rest) := apart (c :: s) List.suffix_rfl (List.cons_ne_nil c s)
    have later := ih fun t suffix => apart t (suffix.trans (List.suffix_cons c s))
    rw [List.cons_append, replaceFrom, if_neg here, later]
    rfl

-- Two texts with equally many marks, the longer of which begins and ends with one: nothing stands around the other.
theorem eq_of_infix_of_count {mark : Char} {s t : List Char} (inside : s <:+: t) (same : s.count mark = t.count mark)
    (first : t.head? = some mark) (last : t.getLast? = some mark) : s = t := by
  obtain ⟨front, back, rfl⟩ := inside
  simp only [List.count_append] at same
  have bare : front.count mark = 0 ∧ back.count mark = 0 := by omega
  have unmarkedFront : mark ∉ front := List.count_eq_zero.mp bare.1
  have unmarkedBack : mark ∉ back := List.count_eq_zero.mp bare.2
  have noFront : front = [] := by
    rcases front with _ | ⟨c, front⟩
    · rfl
    · have is : c = mark := by simpa using first
      exact absurd (is ▸ List.mem_cons_self ..) unmarkedFront
  have noBack : back = [] := by
    by_contra filled
    rw [List.getLast?_append_of_ne_nil _ filled] at last
    exact unmarkedBack (List.mem_of_getLast? last)
  rw [noFront, noBack, List.nil_append, List.append_nil]

end Text

namespace Key

open Placeholder (Occurs Closed)
open Text (numeral isDigit replace replaceFrom)

variable {k l : Key}

theorem count_underscore (k : Key) : k.text.toList.count '_' = 3 := by
  have plain (n : Nat) : (numeral n).toList.count '_' = 0 := by
    rw [numeral, String.toList_ofList, List.count_eq_zero]
    exact Nat.underscore_not_in_toDigits
  rw [toList_text, Placeholder.form]
  simp [List.count_append, plain]

theorem head?_text (k : Key) : k.text.toList.head? = some '_' := by
  rw [toList_text]
  rfl

theorem getLast?_text (k : Key) : k.text.toList.getLast? = some '_' := by
  rw [toList_text, Placeholder.form]
  exact List.getLast?_concat

theorem eq_of_text_inside (inside : k.text.toList <:+: l.text.toList) : k = l := by
  have same : k.text.toList.count '_' = l.text.toList.count '_' := by rw [count_underscore, count_underscore]
  exact text_injective (String.toList_inj.mp (Text.eq_of_infix_of_count inside same l.head?_text l.getLast?_text))

theorem toList_placeholder (k : Key) : k.placeholder.toList = ':' :: k.text.toList := Text.toList_colon k.text

theorem eq_of_occurs (occurs : Occurs k.text l.placeholder) : k = l := by
  rw [Occurs, toList_placeholder] at occurs
  rcases List.infix_cons_iff.mp occurs with first | later
  · exact eq_of_text_inside (List.cons_prefix_cons.mp first).2.isInfix
  · exact eq_of_text_inside ((List.suffix_cons ':' k.text.toList).isInfix.trans later)

theorem eq_of_placeholder_first {rest : List Char} (first : k.placeholder.toList <+: l.placeholder.toList ++ rest) :
    k = l := by
  rw [toList_placeholder, toList_placeholder, List.cons_append] at first
  have tail : k.text.toList <+: l.text.toList ++ rest := (List.cons_prefix_cons.mp first).2
  have read : Placeholder.readGenerated (l.text.toList ++ rest) = some k.text.toList :=
    Placeholder.readGenerated_iff.mpr ⟨Placeholder.isGenerated_iff.mp k.text_isGenerated, tail⟩
  have own : Placeholder.readGenerated (l.text.toList ++ rest) = some l.text.toList :=
    Placeholder.readGenerated_iff.mpr ⟨Placeholder.isGenerated_iff.mp l.text_isGenerated, List.prefix_append ..⟩
  exact text_injective (String.toList_inj.mp (Option.some.inj (read.symm.trans own)))

def listText (ks : List Key) : String := "(" ++ Text.joined ", " (ks.map placeholder) ++ ")"

theorem occurs_listText {ks : List Key} : Occurs k.text (listText ks) ↔ k ∈ ks := by
  constructor
  · intro occurs
    have closed : Closed (ks.map text) (listText ks) := by
      refine .append (.append (.plain _ (by decide)) (.joined (by decide) fun t member => ?_)) (.plain _ (by decide))
      obtain ⟨l, there, rfl⟩ := List.mem_map.mp member
      exact .placeholder l (List.mem_map_of_mem there)
    rcases closed "" k.text k.text_isGenerated (by rwa [String.append_empty]) with member | nothing
    · obtain ⟨l, there, same⟩ := List.mem_map.mp member
      exact text_injective same ▸ there
    · exact absurd nothing (by simp [Occurs])
  · intro member
    exact ((Occurs.placeholder k).joined ", " (List.mem_map_of_mem member)).right "(" |>.left ")"

theorem replaceFrom_plain {s : List Char} (plain : ':' ∉ s) (k : Key) (new rest : List Char) :
    replaceFrom k.placeholder.toList new 0 (s ++ rest) = s ++ replaceFrom k.placeholder.toList new 0 rest := by
  refine Text.replaceFrom_other fun t suffix filled first => ?_
  rcases t with _ | ⟨c, t⟩
  · exact filled rfl
  · rw [toList_placeholder, List.cons_append] at first
    have colon : c = ':' := (List.cons_prefix_cons.mp first).1.symm
    exact plain (suffix.subset (colon ▸ List.mem_cons_self ..))

theorem replaceFrom_placeholder (k l : Key) (new rest : List Char) :
    replaceFrom k.placeholder.toList new 0 (l.placeholder.toList ++ rest) =
      (if l = k then new else l.placeholder.toList) ++ replaceFrom k.placeholder.toList new 0 rest := by
  by_cases same : l = k
  · subst same
    rw [if_pos rfl]
    exact Text.replaceFrom_self (by simp [toList_placeholder]) new rest
  · have here : ¬ k.placeholder.toList <+: ':' :: (l.text.toList ++ rest) := fun first => by
      rw [← List.cons_append, ← l.toList_placeholder] at first
      exact same (eq_of_placeholder_first first).symm
    rw [if_neg same, l.toList_placeholder, List.cons_append, replaceFrom, if_neg here,
      replaceFrom_plain (Placeholder.key_plain l) k new rest]
    rfl

theorem replaceFrom_joined (k : Key) (new : String) (ks : List Key) (rest : List Char) :
    replaceFrom k.placeholder.toList new.toList 0 ((Text.joined ", " (ks.map placeholder)).toList ++ rest) =
      (Text.joined ", " (ks.map fun l => if l = k then new else l.placeholder)).toList ++
        replaceFrom k.placeholder.toList new.toList 0 rest := by
  have one (l : Key) (rest : List Char) := replaceFrom_placeholder k l new.toList rest
  simp only [← apply_ite String.toList] at one
  match ks with
  | [] => rfl
  | [l] => exact one l rest
  | l :: next :: ks =>
    have comma : ':' ∉ (", ").toList := by decide
    have later := replaceFrom_joined k new (next :: ks) rest
    simp only [List.map_cons, Text.joined, String.toList_append, List.append_assoc] at later ⊢
    rw [one, replaceFrom_plain comma, later]

theorem replace_listText (k : Key) (new : String) (ks : List Key) :
    replace k.placeholder new (listText ks) =
      "(" ++ Text.joined ", " (ks.map fun l => if l = k then new else l.placeholder) ++ ")" := by
  have opened : ':' ∉ ("(").toList := by decide
  have closed : ':' ∉ (")").toList := by decide
  have ended := replaceFrom_plain closed k new.toList []
  rw [List.append_nil] at ended
  rw [← String.toList_inj, replace, String.toList_ofList, listText]
  simp only [String.toList_append, List.append_assoc]
  rw [replaceFrom_plain opened, replaceFrom_joined, ended, replaceFrom, List.append_nil]

theorem inlineEach_keys (r : Registry) (type : Option ParamType) (vs : List Value) :
    ∃ ks : List Key, ks.length = vs.length ∧ (Registry.inlineEach type vs r).1 = ks.map placeholder := by
  induction vs generalizing r with
  | nil => exact ⟨[], rfl, rfl⟩
  | cons v vs ih =>
    obtain ⟨ks, many, texts⟩ := ih (r.inlineScalar v type).2
    refine ⟨r.nextKey :: ks, congrArg (· + 1) many, ?_⟩
    rw [List.map_cons, ← texts]
    rfl

-- No key stands inside another one or inside its placeholder, and a list as it is bound holds exactly the
-- placeholders of its keys, each of which can be replaced without touching the others.
theorem keys_unambiguous :
    (∀ k l : Key, k.text.toList <:+: l.text.toList ↔ k = l) ∧
    (∀ o s o' s' : UInt64, (⟨o, s⟩ : Key).text = (⟨o', s'⟩ : Key).text → o = o' ∧ s = s') ∧
    (∀ k l : Key, k.placeholder.toList <:+: l.placeholder.toList ↔ k = l) ∧
    (∀ (r : Registry) (vs : List Value) type,
      ∃ ks : List Key, ks.length = vs.length ∧ (r.inline (.list vs type)).1 = listText ks) ∧
    (∀ (k : Key) ks, k.placeholder.toList <:+: (listText ks).toList ↔ k ∈ ks) ∧
    ∀ (k : Key) new ks, replace k.placeholder new (listText ks) =
      "(" ++ Text.joined ", " (ks.map fun l => if l = k then new else l.placeholder) ++ ")" := by
  have whole (k : Key) (s : String) : k.placeholder.toList <:+: s.toList ↔ Occurs k.text s := by
    rw [toList_placeholder, Occurs]
  refine ⟨fun k l => ⟨eq_of_text_inside, fun same => ?_⟩, fun o s o' s' same => ?_, fun k l => ?_, fun r vs type => ?_,
    fun k ks => (whole k _).trans occurs_listText, replace_listText⟩
  · exact same ▸ List.infix_rfl
  · exact Key.mk.inj (text_injective same)
  · rw [whole]
    exact ⟨eq_of_occurs, fun same => same ▸ .placeholder k⟩
  · obtain ⟨ks, many, texts⟩ := inlineEach_keys r type vs
    exact ⟨ks, many, congrArg (fun items => "(" ++ Text.joined ", " items ++ ")") texts⟩

example : replace ":_1_1_" "?" (listText [⟨11, 1⟩, ⟨1, 1⟩, ⟨1, 11⟩, ⟨1, 1⟩]) = "(:_11_1_, ?, :_1_11_, ?)" := by decide

end Key

end SqlCompose
