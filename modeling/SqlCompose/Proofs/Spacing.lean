import Mathlib.Data.List.Chain
import SqlCompose.Proofs.Occurrences
import SqlCompose.Proofs.Trimming

namespace SqlCompose.Text

def edge (allowed : Bool) (c : Char) : Bool := !isBlank c || allowed && c == ' '

def Single (s : List Char) : Prop := s.IsChain fun c d => ¬(c = ' ' ∧ d = ' ')

instance : DecidablePred Single := fun s => inferInstanceAs (Decidable (s.IsChain fun c d => ¬(c = ' ' ∧ d = ' ')))

-- A text that is not empty, with at most one space at an edge where it is allowed.
structure Spaced (lead trail : Bool) (s : String) : Prop where
  first : s.toList.head?.any (edge lead) = true
  last : s.toList.getLast?.any (edge trail) = true
  single : Single s.toList

instance (lead trail : Bool) : DecidablePred (Spaced lead trail) := fun s =>
  decidable_of_iff (s.toList.head?.any (edge lead) = true ∧ s.toList.getLast?.any (edge trail) = true ∧ Single s.toList)
    ⟨fun ⟨first, last, single⟩ => ⟨first, last, single⟩, fun ⟨first, last, single⟩ => ⟨first, last, single⟩⟩

abbrev Tidy : String → Prop := Spaced false false

theorem space_spaced : Spaced true true " " := by decide

def Part (lead trail : Bool) (s : String) : Prop := s = "" ∨ Spaced lead trail s

instance (lead trail : Bool) : DecidablePred (Part lead trail) := fun s =>
  inferInstanceAs (Decidable (s = "" ∨ Spaced lead trail s))

variable {a b c d : Bool} {s t : String}

theorem edge_false {x : Char} : edge false x = true ↔ isBlank x = false := by
  simp [edge]

theorem space_of_edge {x : Char} (allows : edge a x = true) (blank : isBlank x = true) : a = true ∧ x = ' ' := by
  simpa [edge, blank] using allows

namespace Spaced

-- Of two texts that meet, at most one may have a space there.
theorem append (left : Spaced a b s) (right : Spaced c d t) (apart : (b && c) = false) : Spaced a d (s ++ t) := by
  obtain ⟨f, first, leads⟩ := (Option.any_eq_true ..).mp left.first
  obtain ⟨l, last, trails⟩ := (Option.any_eq_true ..).mp right.last
  obtain ⟨x, before, closes⟩ := (Option.any_eq_true ..).mp left.last
  obtain ⟨y, after, opens⟩ := (Option.any_eq_true ..).mp right.first
  refine ⟨?_, ?_, ?_⟩
  · rw [String.toList_append, List.head?_append, first]
    exact leads
  · rw [String.toList_append, List.getLast?_append, last]
    exact trails
  · rw [String.toList_append]
    refine left.single.append right.single fun x' isX y' isY both => ?_
    cases before.symm.trans isX
    cases after.symm.trans isY
    have blank {ch : Char} (space : ch = ' ') : isBlank ch = true := space ▸ rfl
    have ends := (space_of_edge closes (blank both.1)).1
    have starts := (space_of_edge opens (blank both.2)).1
    rw [ends, starts] at apart
    cases apart

theorem solid (filled : s.toList ≠ []) (each : ∀ x ∈ s.toList, isBlank x = false) : Spaced a b s := by
  have edges {allowed : Bool} {x : Char} (member : x ∈ s.toList) : edge allowed x = true := by
    simp [edge, each x member]
  refine ⟨?_, ?_, ?_⟩
  · exact (Option.any_eq_true ..).mpr ⟨_, List.head?_eq_some_head filled, edges (List.head_mem filled)⟩
  · exact (Option.any_eq_true ..).mpr ⟨_, List.getLast?_eq_some_getLast filled, edges (List.getLast_mem filled)⟩
  · refine (List.pairwise_of_forall_mem_list fun x member y _ both => ?_).isChain
    rw [both.1] at member
    exact absurd (each ' ' member) (by decide)

theorem part (spaced : Spaced a b s) : Part a b s := .inr spaced

theorem tail (left : Spaced a false s) (right : Part c false t) : Spaced a false (s ++ t) := by
  rcases right with rfl | right
  · rwa [String.append_empty]
  · exact left.append right (Bool.false_and c)

theorem trimStart (spaced : Spaced a false s) : Tidy (trimStart s) := by
  obtain ⟨l, last, trails⟩ := (Option.any_eq_true ..).mp spaced.last
  have kept := List.takeWhile_append_dropWhile (p := isBlank) (l := s.toList)
  have remains : s.toList.dropWhile isBlank ≠ [] := by
    intro blanks
    rw [blanks, List.append_nil] at kept
    have member : l ∈ s.toList.takeWhile isBlank := kept.symm ▸ List.mem_of_getLast? last
    have blank := List.all_eq_true.mp List.all_takeWhile l member
    rw [edge_false.mp trails] at blank
    cases blank
  have ends : (s.toList.dropWhile isBlank).getLast? = some l := by
    rw [← last, ← List.getLast?_append_of_ne_nil (s.toList.takeWhile isBlank) remains, kept]
  obtain ⟨f, rest, split⟩ := List.exists_cons_of_ne_nil remains
  have starts := List.head?_dropWhile_not isBlank s.toList
  rw [split] at starts
  refine ⟨?_, ?_, ?_⟩ <;> rw [toList_trimStart]
  · rw [split]
    exact edge_false.mpr starts
  · exact (Option.any_eq_true ..).mpr ⟨l, ends, trails⟩
  · exact spaced.single.suffix (List.dropWhile_suffix _)

theorem trimStart_eq (spaced : Spaced false b s) : Text.trimStart s = s := by
  obtain ⟨f, first, leads⟩ := (Option.any_eq_true ..).mp spaced.first
  obtain ⟨rest, split⟩ := List.head?_eq_some_iff.mp first
  exact Text.trimStart_of_head (edge_false.mp leads) split

end Spaced

namespace Part

theorem missing : Part a b "" := .inl rfl

theorem lead (left : Part false true s) (right : Spaced false b t) : Spaced false b (s ++ t) := by
  rcases left with rfl | left
  · rwa [String.empty_append]
  · exact left.append right rfl

theorem append (left : Part a b s) (right : Part a b t) (apart : (b && a) = false) : Part a b (s ++ t) := by
  rcases left with rfl | left
  · rwa [String.empty_append]
  · rcases right with rfl | right
    · rw [String.append_empty]
      exact left.part
    · exact (left.append right apart).part

theorem trimStart (part : Part a false s) : Part false false (trimStart s) := by
  rcases part with rfl | spaced
  · exact .missing
  · exact spaced.trimStart.part

end Part

section Lists

variable {items : List String}

theorem joined_tidy {separator : String} (between : Spaced true true separator) (each : ∀ t ∈ items, Tidy t)
    (filled : items ≠ []) : Tidy (joined separator items) := by
  induction items with
  | nil => exact absurd rfl filled
  | cons first rest ih =>
    obtain ⟨here, later⟩ := List.forall_mem_cons.mp each
    cases rest with
    | nil => exact here
    | cons second rest => exact (here.append between rfl).append (ih later (by simp)) rfl

theorem joined_part {separator : String} (between : Spaced true true separator) (each : ∀ t ∈ items, Tidy t) :
    Part false false (joined separator items) := by
  by_cases itemless : items = []
  · subst itemless
    exact .missing
  · exact (joined_tidy between each itemless).part

theorem listing_spaced {glue : String} (between : Spaced true true (glue ++ " ")) (each : ∀ t ∈ items, Tidy t)
    (filled : items ≠ []) : Spaced true false (listing glue items) := by
  cases items with
  | nil => exact absurd rfl filled
  | cons first rest => exact space_spaced.append (joined_tidy between each filled) rfl

theorem listing_part {glue : String} (between : Spaced true true (glue ++ " ")) (each : ∀ t ∈ items, Tidy t) :
    Part true false (listing glue items) := by
  by_cases itemless : items = []
  · subst itemless
    exact .missing
  · exact (listing_spaced between each itemless).part

theorem joined_lead (each : ∀ t ∈ items, Part false true t) : Part false true (joined "" items) :=
  joined_all (P := Part false true) (fun _ _ left right => left.append right rfl) .missing .missing each

end Lists

section Characters

variable {f : Char → List Char}

theorem single_flatMap (full : ∀ x, f x ≠ []) (own : ∀ x, ∀ y ∈ f x, isBlank y = true → y = x) (space : f ' ' = [' '])
    {cs : List Char} (single : Single cs) : Single (cs.flatMap f) := by
  have spaceOf {x : Char} (member : ' ' ∈ f x) : x = ' ' := (own x ' ' member rfl).symm
  induction cs with
  | nil => exact .nil
  | cons x rest ih =>
    obtain ⟨next, later⟩ := List.isChain_cons.mp single
    have here : Single (f x) := by
      by_cases same : x = ' '
      · rw [same, space]
        exact .singleton _
      · have apart : ∀ u ∈ f x, ∀ v ∈ f x, ¬(u = ' ' ∧ v = ' ') :=
          fun u there _ _ both => same (spaceOf (both.1 ▸ there))
        exact (List.pairwise_of_forall_mem_list apart).isChain
    rw [List.flatMap_cons]
    refine here.append (ih later) fun u last v first both => ?_
    have left := spaceOf (both.1 ▸ List.mem_of_getLast? last)
    cases rest with
    | nil => cases first
    | cons y more =>
      rw [List.flatMap_cons, List.head?_append_of_ne_nil _ (full y)] at first
      exact next y rfl ⟨left, spaceOf (both.2 ▸ List.mem_of_mem_head? first)⟩

theorem Spaced.flatMap (full : ∀ x, f x ≠ []) (own : ∀ x, ∀ y ∈ f x, isBlank y = true → y = x) (space : f ' ' = [' '])
    (spaced : Spaced a b s) : Spaced a b (String.ofList (s.toList.flatMap f)) := by
  have edges {allowed : Bool} {x y : Char} (allows : edge allowed x = true) (member : y ∈ f x) :
      edge allowed y = true := by
    by_cases blank : isBlank y = true
    · rwa [own x y member blank]
    · simp [edge, blank]
  obtain ⟨x, first, leads⟩ := (Option.any_eq_true ..).mp spaced.first
  obtain ⟨y, last, trails⟩ := (Option.any_eq_true ..).mp spaced.last
  obtain ⟨rest, split⟩ := List.head?_eq_some_iff.mp first
  obtain ⟨front, split'⟩ := List.getLast?_eq_some_iff.mp last
  refine ⟨?_, ?_, ?_⟩ <;> rw [String.toList_ofList]
  · rw [split, List.flatMap_cons, List.head?_append_of_ne_nil _ (full x), List.head?_eq_some_head (full x)]
    exact edges leads (List.head_mem _)
  · rw [split', List.flatMap_append, List.flatMap_singleton, List.getLast?_append_of_ne_nil _ (full y),
      List.getLast?_eq_some_getLast (full y)]
    exact edges trails (List.getLast_mem _)
  · exact single_flatMap full own space spaced.single

end Characters

theorem isBlank_of_isDigit {x : Char} (digit : isDigit x = true) : isBlank x = false := by
  have bounds : 48 ≤ x.toNat ∧ x.toNat ≤ 57 := by
    simpa [isDigit, Char.le_def, UInt32.le_iff_toNat_le] using digit
  simp only [isBlank, Bool.or_eq_false_iff, Bool.and_eq_false_iff, decide_eq_false_iff_not, beq_eq_false_iff_ne]
  omega

theorem numeral_tidy (n : Nat) : Tidy (numeral n) :=
  .solid (numeral_digits n).1 fun x member => isBlank_of_isDigit ((numeral_digits n).2 x member)

theorem Spaced.toUpper (spaced : Spaced a b s) : Spaced a b (toUpper s) :=
  spaced.flatMap upperChar_full (fun _ _ => upperChar_blank) (by decide +kernel)

end SqlCompose.Text

namespace SqlCompose

open Text (Spaced Tidy Part Single)

theorem Key.placeholder_tidy (k : Key) : Tidy k.placeholder := by
  have between : Tidy "_" := by decide
  have ordinal : Tidy ("_" ++ Text.numeral k.ordinal.toNat) := between.append (Text.numeral_tidy _) rfl
  have sequence : Tidy (Text.numeral k.sequence.toNat ++ "_") := (Text.numeral_tidy _).append between rfl
  have key : Tidy k.text := by
    rw [Key.text, String.append_assoc]
    exact (ordinal.append between rfl).append sequence rfl
  have colon : Tidy ":" := by decide
  exact colon.append key rfl

namespace Dialect

variable (d : Dialect)

theorem quotes_solid : Text.isBlank d.openQuote = false ∧ Text.isBlank d.closeQuote = false := by
  cases d <;> decide

theorem quote_tidy {name : String} (single : Single name.toList) : Tidy (d.quote name) := by
  obtain ⟨opens, closes⟩ := d.quotes_solid
  have solid {x : Char} (notBlank : Text.isBlank x = false) : x ≠ ' ' := by
    rintro rfl
    exact absurd notBlank (by decide)
  have inner := Text.single_flatMap (f := fun c => if c = d.closeQuote then [c, c] else [c])
    (fun x => by split <;> simp) (fun x y member _ => by split at member <;> simpa using member)
    (by cases d <;> decide) single
  refine ⟨?_, ?_, ?_⟩ <;> rw [quote, String.toList_ofList, quoteChars]
  · exact Text.edge_false.mpr opens
  · rw [List.getLast?_concat]
    exact Text.edge_false.mpr closes
  · exact (inner.cons fun _ _ both => solid opens both.1).append (.singleton _)
      fun _ _ y last both => solid closes (by simpa [both.2] using last)

theorem quotePath_tidy {name : String} (single : Single name.toList) : Tidy (d.quotePath name) := by
  obtain ⟨first, rest, read, _, each⟩ := pathParts_infix name.toList
  rw [quotePath, read]
  refine Text.joined_tidy (by decide) (fun t member => ?_) (List.cons_ne_nil _ _)
  obtain ⟨part, there, rfl⟩ := List.mem_map.mp member
  refine d.quote_tidy ?_
  rw [String.toList_ofList]
  exact single.infix (each part there)

theorem earlyWindow_part (limit offset : UInt64) : Part true false (d.earlyWindow limit offset) := by
  have top : Spaced true true " TOP " := by decide
  unfold earlyWindow
  split
  · exact (top.append (Text.numeral_tidy _) rfl).part
  · exact .missing

theorem lateWindow_part (limit offset : UInt64) : Part true false (d.lateWindow limit offset) := by
  have words {p : String} (word : Spaced true true p) (n : UInt64) : Spaced true false (p ++ Text.numeral n.toNat) :=
    word.append (Text.numeral_tidy _) rfl
  have rows : Spaced true true " ROWS FETCH NEXT " := by decide
  have only : Spaced true false " ROWS ONLY" := by decide
  unfold lateWindow
  split
  · split
    · have skipped := (words (p := " OFFSET ") (by decide) offset).append rows rfl
      have fetched := skipped.append (Text.numeral_tidy limit.toNat) rfl
      exact (fetched.append only rfl).part
    · exact .missing
  · refine Part.append ?_ ?_ rfl <;> split
    · exact .missing
    · exact (words (by decide) limit).part
    · exact .missing
    · exact (words (by decide) offset).part

end Dialect

namespace Join

variable {kind table condition : String} {trail : Bool}

theorem kindText_tidy (tidy : Tidy (Text.trim kind)) : Tidy (kindText kind) := by
  have join : Spaced true false " JOIN" := by decide
  unfold kindText
  dsimp only
  split
  · exact tidy.toUpper
  · exact tidy.toUpper.append join rfl

theorem conditionText_spaced (spaced : Spaced false trail condition) :
    Spaced false trail (conditionText condition) := by
  have on : Spaced false true "ON " := by decide
  unfold conditionText
  rw [spaced.trimStart_eq]
  dsimp only
  split
  · exact spaced
  · exact on.append spaced rfl

theorem text_tidy (join : Tidy (Text.trim kind)) (source : Tidy table) (part : Part false false condition) :
    Tidy (text kind table condition) := by
  have head : Tidy (kindText kind ++ " " ++ table) :=
    ((kindText_tidy join).append Text.space_spaced rfl).append source rfl
  unfold text
  dsimp only
  split
  · exact head
  · rename_i filled
    have spaced : Tidy condition := part.resolve_left fun missing => filled (by simp [missing])
    exact (head.append Text.space_spaced rfl).append spaced rfl

end Join

end SqlCompose
