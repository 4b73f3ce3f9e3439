import Mathlib.Data.List.Basic
import Mathlib.Data.List.Infix
import SqlCompose.Proofs.Marks

namespace SqlCompose

def Text.Plain (s : String) : Prop := ':' ∉ s.toList

instance : DecidablePred Text.Plain := fun s => inferInstanceAs (Decidable (':' ∉ s.toList))

namespace Text

variable {s t : String}

theorem plain_iff : Plain s ↔ Without [':'] s := by simp [Plain, Without]

theorem colon_reserved : [':'] ⊆ reserved := by decide

theorem plain_empty : Plain "" := by decide

theorem Plain.append (left : Plain s) (right : Plain t) : Plain (s ++ t) :=
  plain_iff.mpr ((plain_iff.mp left).append (plain_iff.mp right))

theorem Plain.trimStart (plain : Plain s) : Plain (trimStart s) :=
  plain_iff.mpr (plain_iff.mp plain).trimStart

theorem lengthenLast_concat (text last : String) (front : List String) :
    lengthenLast text (front ++ [last]) = front ++ [last ++ text] := by
  induction front with
  | nil => rfl
  | cons first rest ih =>
    cases rest with
    | nil => rfl
    | cons second rest => exact congrArg (first :: ·) ih

theorem lengthenLast_ne_nil (text : String) (items : List String) : lengthenLast text items ≠ [] := by
  rcases List.eq_nil_or_concat' items with rfl | ⟨front, last, rfl⟩
  · exact List.cons_ne_nil _ _
  · rw [lengthenLast_concat]
    simp

theorem Plain.joined {separator : String} (between : Plain separator) {items : List String}
    (each : ∀ t ∈ items, Plain t) : Plain (joined separator items) :=
  joined_all (P := Plain) (fun _ _ => .append) plain_empty between each

theorem Plain.listing {glue : String} (between : Plain glue) {items : List String}
    (each : ∀ t ∈ items, Plain t) : Plain (listing glue items) :=
  listing_all (P := Plain) (fun _ _ => .append) plain_empty (by decide) between each

end Text

theorem FromClause.changeLast_concat (f : FromEntry → FromEntry) (last : FromEntry)
    (front : List FromEntry) : changeLast f (front ++ [last]) = front ++ [f last] := by
  induction front with
  | nil => rfl
  | cons first rest ih =>
    cases rest with
    | nil => rfl
    | cons second rest => exact congrArg (first :: ·) ih

namespace Dialect

theorem quotes_plain (d : Dialect) : d.openQuote ≠ ':' ∧ d.closeQuote ≠ ':' := by
  cases d <;> decide

theorem quote_plain (d : Dialect) {name : String} (plain : Text.Plain name) :
    Text.Plain (d.quote name) := by
  intro member
  rw [quote, String.toList_ofList, quoteChars] at member
  rcases List.mem_append.mp member with front | last
  · rcases List.mem_cons.mp front with first | inside
    · exact d.quotes_plain.1 first.symm
    · obtain ⟨c, there, same⟩ := List.mem_flatMap.mp inside
      refine plain ?_
      split at same <;> simp at same <;> exact same ▸ there
  · exact d.quotes_plain.2 (List.mem_singleton.mp last).symm

theorem pathParts_infix (name : List Char) :
    ∃ first rest, pathParts name = first :: rest ∧ first <+: name ∧ ∀ part ∈ first :: rest, part <:+: name := by
  induction name with
  | nil => exact ⟨[], [], rfl, List.prefix_rfl, fun part member => List.mem_singleton.mp member ▸ List.infix_rfl⟩
  | cons c rest ih =>
    obtain ⟨first, parts, read, head, each⟩ := ih
    have wider {part : List Char} (stands : part <:+: rest) : part <:+: c :: rest :=
      stands.trans (List.suffix_cons c rest).isInfix
    unfold pathParts
    split
    · refine ⟨[], first :: parts, by rw [read], List.nil_prefix, List.forall_mem_cons.mpr ⟨List.nil_infix, ?_⟩⟩
      exact fun part member => wider (each part member)
    · have lengthened : c :: first <+: c :: rest := List.cons_prefix_cons.mpr ⟨rfl, head⟩
      refine ⟨c :: first, parts, by rw [read], lengthened, List.forall_mem_cons.mpr ⟨lengthened.isInfix, ?_⟩⟩
      exact fun part member => wider (each part (List.mem_cons_of_mem _ member))

theorem pathParts_chars (name : List Char) : ∀ part ∈ pathParts name, part ⊆ name := by
  obtain ⟨first, rest, read, _, each⟩ := pathParts_infix name
  rw [read]
  exact fun part member => (each part member).subset

theorem quotePath_plain (d : Dialect) {name : String} (plain : Text.Plain name) :
    Text.Plain (d.quotePath name) := by
  refine Text.Plain.joined (by decide) fun t member => ?_
  obtain ⟨part, there, rfl⟩ := List.mem_map.mp member
  refine d.quote_plain fun colon => plain (pathParts_chars _ part there ?_)
  simpa using colon

theorem earlyWindow_plain (d : Dialect) (limit offset : UInt64) :
    Text.Plain (d.earlyWindow limit offset) :=
  Text.plain_iff.mpr ((d.earlyWindow_without limit offset).mono Text.colon_reserved)

theorem lateWindow_plain (d : Dialect) (limit offset : UInt64) :
    Text.Plain (d.lateWindow limit offset) :=
  Text.plain_iff.mpr ((d.lateWindow_without limit offset).mono Text.colon_reserved)

end Dialect

namespace Placeholder

def Occurs (key text : String) : Prop := (':' :: key.toList) <:+: text.toList

instance (key text : String) : Decidable (Occurs key text) :=
  inferInstanceAs (Decidable ((':' :: key.toList) <:+: text.toList))

variable {key s t : String}

theorem Occurs.left (occurs : Occurs key s) (t : String) : Occurs key (s ++ t) := by
  rw [Occurs, String.toList_append]
  exact occurs.trans (List.prefix_append _ _).isInfix

theorem Occurs.right (s : String) (occurs : Occurs key t) : Occurs key (s ++ t) := by
  rw [Occurs, String.toList_append]
  exact occurs.trans (List.suffix_append _ _).isInfix

theorem Occurs.trimStart (occurs : Occurs key s) : Occurs key (Text.trimStart s) := by
  obtain ⟨front, back, same⟩ := occurs
  rw [Occurs, Text.toList_trimStart, ← same, List.append_assoc]
  have stop : Text.isBlank ':' = false := rfl
  have dropped : ∀ front : List Char, (':' :: key.toList) <:+:
      (front ++ (':' :: key.toList ++ back)).dropWhile Text.isBlank := by
    intro front
    induction front with
    | nil => simpa [stop] using (List.prefix_append (':' :: key.toList) back).isInfix
    | cons c rest ih =>
      rw [List.cons_append, List.dropWhile_cons]
      split
      · exact ih
      · exact (List.prefix_append _ back).isInfix.trans (List.suffix_append (c :: rest) _).isInfix
  exact dropped front

theorem Occurs.joined (separator : String) {items : List String} (member : t ∈ items)
    (occurs : Occurs key t) : Occurs key (Text.joined separator items) := by
  induction items with
  | nil => cases member
  | cons first rest ih =>
    cases rest with
    | nil =>
      rw [← List.mem_singleton.mp member]
      exact occurs
    | cons second rest =>
      rcases List.mem_cons.mp member with rfl | later
      · exact (occurs.left _).left _
      · exact (ih later).right _

theorem Occurs.listing (glue : String) {items : List String} (member : t ∈ items)
    (occurs : Occurs key t) : Occurs key (Text.listing glue items) := by
  cases items with
  | nil => cases member
  | cons first rest => exact (occurs.joined _ member).right _

theorem Occurs.placeholder (k : Key) : Occurs k.text k.placeholder := by
  rw [Occurs, Key.placeholder, String.toList_append]
  exact List.infix_refl _

-- The generated placeholders that begin in a text are among some keys, whatever follows the text.
def Closed (keys : List String) (text : String) : Prop :=
  ∀ rest key, isGenerated key = true → Occurs key (text ++ rest) → key ∈ keys ∨ Occurs key rest

-- The same, unless an underscore follows the text at once.
def Guarded (keys : List String) (text : String) : Prop :=
  ∀ rest key, rest.toList.head? ≠ some '_' → isGenerated key = true → Occurs key (text ++ rest) →
    key ∈ keys ∨ Occurs key rest

variable {keys more : List String}

theorem occurs_after {text rest : List Char} (plain : ':' ∉ text)
    (occurs : (':' :: key.toList) <:+: text ++ rest) : (':' :: key.toList) <:+: rest := by
  induction text with
  | nil => exact occurs
  | cons c text ih =>
    rw [List.cons_append] at occurs
    rcases List.infix_cons_iff.mp occurs with first | later
    · obtain ⟨_, same⟩ := first
      exact absurd ((List.cons.inj same).1 ▸ List.mem_cons_self ..) plain
    · exact ih (fun member => plain (List.mem_cons_of_mem _ member)) later

theorem Closed.plain (keys : List String) (plain : Text.Plain s) : Closed keys s := by
  intro rest key _ occurs
  rw [Occurs, String.toList_append] at occurs
  exact .inr (occurs_after plain occurs)

theorem Closed.append (left : Closed keys s) (right : Closed keys t) : Closed keys (s ++ t) := by
  intro rest key generated occurs
  rw [String.append_assoc] at occurs
  exact (left _ key generated occurs).elim .inl (right rest key generated)

theorem Closed.mono (grows : ∀ key ∈ keys, isGenerated key = true → key ∈ more) (closed : Closed keys s) :
    Closed more s :=
  fun rest key generated occurs =>
    (closed rest key generated occurs).imp_left fun member => grows key member generated

theorem Closed.trimStart (closed : Closed keys s) : Closed keys (Text.trimStart s) := by
  intro rest key generated occurs
  refine closed rest key generated ?_
  rw [Occurs, String.toList_append] at occurs ⊢
  rw [Text.toList_trimStart] at occurs
  obtain ⟨front, same⟩ := List.dropWhile_suffix Text.isBlank (l := s.toList)
  rw [← same, List.append_assoc]
  exact occurs.trans (List.suffix_append front _).isInfix

theorem Closed.joined {separator : String} (between : Text.Plain separator) {items : List String}
    (each : ∀ t ∈ items, Closed keys t) : Closed keys (Text.joined separator items) :=
  Text.joined_all (P := Closed keys) (fun _ _ => .append) (.plain keys Text.plain_empty) (.plain keys between) each

theorem Closed.listing {glue : String} (between : Text.Plain glue) {items : List String}
    (each : ∀ t ∈ items, Closed keys t) : Closed keys (Text.listing glue items) :=
  Text.listing_all (P := Closed keys) (fun _ _ => .append) (.plain keys Text.plain_empty) (.plain keys (by decide))
    (.plain keys between) each

theorem key_plain (k : Key) : Text.Plain k.text :=
  Text.plain_iff.mpr (k.text_without.mono Text.colon_reserved)

-- The digits and underscores of a generated key hold no colon, and no shorter or longer key ends there.
theorem Closed.placeholder (k : Key) (member : k.text ∈ keys) : Closed keys k.placeholder := by
  intro rest key generated occurs
  rw [Occurs, Key.placeholder, String.toList_append, String.toList_append] at occurs
  rcases List.infix_cons_iff.mp occurs with first | later
  · obtain ⟨tail, same⟩ := first
    have read := isGenerated_iff.mp generated
    have longer : readGenerated (k.text.toList ++ rest.toList) = some key.toList :=
      readGenerated_iff.mpr ⟨read, tail, (List.cons.inj same).2⟩
    have own : readGenerated (k.text.toList ++ rest.toList) = some k.text.toList :=
      readGenerated_iff.mpr ⟨isGenerated_iff.mp k.text_isGenerated, List.prefix_append _ _⟩
    rw [own] at longer
    exact .inl (String.toList_inj.mp (Option.some.inj longer) ▸ member)
  · exact .inr (occurs_after (key_plain k) later)

theorem Closed.guarded (closed : Closed keys s) : Guarded keys s :=
  fun rest key _ => closed rest key

theorem Guarded.mono (grows : ∀ key ∈ keys, isGenerated key = true → key ∈ more)
    (guarded : Guarded keys s) : Guarded more s :=
  fun rest key next generated occurs =>
    (guarded rest key next generated occurs).imp_left fun member => grows key member generated

theorem head_append (left : s.toList.head? ≠ some '_') (right : t.toList.head? ≠ some '_') :
    (s ++ t).toList.head? ≠ some '_' := by
  rw [String.toList_append, List.head?_append]
  cases first : s.toList.head? with
  | none => exact right
  | some c =>
    rw [first] at left
    exact left

theorem head_of_blank (t : String) (first : s.toList.head? = some ' ') :
    (s ++ t).toList.head? = some ' ' := by
  rw [String.toList_append, List.head?_append, first]
  rfl

theorem head_ne (first : s.toList.head? = some ' ') : s.toList.head? ≠ some '_' := by
  rw [first]
  decide

theorem Guarded.append (left : Guarded keys s) (right : Guarded keys t)
    (next : t.toList.head? ≠ some '_') : Guarded keys (s ++ t) := by
  intro rest key after generated occurs
  rw [String.append_assoc] at occurs
  exact (left (t ++ rest) key (head_append next after) generated occurs).elim .inl
    (right rest key after generated)

theorem Guarded.followed (left : Guarded keys s) (right : Closed keys t)
    (next : t.toList.head? = some c) (other : c ≠ '_') : Closed keys (s ++ t) := by
  intro rest key generated occurs
  rw [String.append_assoc] at occurs
  refine (left (t ++ rest) key ?_ generated occurs).elim .inl (right rest key generated)
  rw [String.toList_append, List.head?_append, next]
  exact fun same => other (Option.some.inj same)

theorem Closed.append_guarded (left : Closed keys s) (right : Guarded keys t) : Guarded keys (s ++ t) := by
  intro rest key after generated occurs
  rw [String.append_assoc] at occurs
  exact (left _ key generated occurs).elim .inl (right rest key after generated)

theorem Guarded.trimStart (guarded : Guarded keys s) : Guarded keys (Text.trimStart s) := by
  intro rest key after generated occurs
  refine guarded rest key after generated ?_
  rw [Occurs, String.toList_append] at occurs ⊢
  rw [Text.toList_trimStart] at occurs
  obtain ⟨front, same⟩ := List.dropWhile_suffix Text.isBlank (l := s.toList)
  rw [← same, List.append_assoc]
  exact occurs.trans (List.suffix_append front _).isInfix

theorem Guarded.column {column : String} (plain : Text.Plain column)
    (first : column.toList.head? ≠ some '_') : Guarded keys (":" ++ column) := by
  intro rest key after generated occurs
  rw [Occurs, String.toList_append, String.toList_append] at occurs
  have text : (':' :: key.toList) <:+: ':' :: (column.toList ++ rest.toList) := occurs
  rcases List.infix_cons_iff.mp text with here | later
  · obtain ⟨tail, same⟩ := here
    obtain ⟨digits, starts⟩ := isGenerated_starts generated
    have head : (column.toList ++ rest.toList).head? = some '_' := by
      rw [← (List.cons.inj same).2, starts]
      rfl
    rw [List.head?_append] at head
    cases name : column.toList.head? with
    | none =>
      rw [name] at head
      exact absurd head after
    | some c =>
      rw [name] at head
      exact absurd (name.trans head) first
  · exact .inr (occurs_after plain later)

theorem Guarded.listing {items : List String} (each : ∀ t ∈ items, Guarded keys t) :
    Guarded keys (Text.listing "," items) := by
  have joined : Guarded keys (Text.joined ("," ++ " ") items) := by
    induction items with
    | nil => exact (Closed.plain keys Text.plain_empty).guarded
    | cons first rest ih =>
      have here := each first (List.mem_cons_self ..)
      cases rest with
      | nil => exact here
      | cons second rest =>
        have separated : Closed keys (first ++ ("," ++ " ")) :=
          here.followed (.plain keys (by decide)) rfl (by decide)
        exact separated.append_guarded (ih fun t member => each t (List.mem_cons_of_mem _ member))
  cases items with
  | nil => exact (Closed.plain keys Text.plain_empty).guarded
  | cons first rest => exact (Closed.plain keys (by decide)).append_guarded joined

theorem Guarded.covers (guarded : Guarded keys s) (generated : isGenerated key = true)
    (occurs : Occurs key s) : key ∈ keys := by
  refine (guarded "" key nofun generated ?_).resolve_right ?_
  · rwa [String.append_empty]
  · intro within
    cases List.infix_nil.mp within

end Placeholder

end SqlCompose
