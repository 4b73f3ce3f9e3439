import Mathlib.Data.List.Perm.Basic
import SqlCompose.Json.Param
import SqlCompose.Json.Writer
import SqlCompose.Proofs.JsonTexts

namespace SqlCompose.Json

open Text (numeral hexNumber? hexDigits joined)

def unitsOf (s : List Char) : Units := s.map Char.toNat

theorem not_surrogate (c : Char) : isHighSurrogate c.toNat = false ∧ isLowSurrogate c.toNat = false := by
  have valid : c.toNat < 0xd800 ∨ 0xdfff < c.toNat ∧ c.toNat < 0x110000 := c.valid
  simp only [isHighSurrogate, isLowSurrogate, Bool.and_eq_false_iff, decide_eq_false_iff_not]
  omega

theorem chars?_unitsOf (s : List Char) : chars? (unitsOf s) = some s := by
  match s with
  | [] => rfl
  | [c] =>
    obtain ⟨high, low⟩ := not_surrogate c
    simp [unitsOf, chars?, high, low]
  | c :: d :: rest =>
    obtain ⟨high, low⟩ := not_surrogate c
    have later : chars? (d.toNat :: unitsOf rest) = some (d :: rest) := chars?_unitsOf (d :: rest)
    simp [unitsOf, chars?, high, low]
    simpa [unitsOf] using later

theorem text?_unitsOf (s : String) : text? (unitsOf s.toList) = some s := by
  rw [text?, chars?_unitsOf, Option.map_some, String.ofList_toList]

theorem escapeChar_text (c : Char) {s : List Char} {units : Units} (rest : UnitsText s units) :
    UnitsText (escapeChar c ++ s) (c.toNat :: units) := by
  unfold escapeChar
  split
  iterate 7 exact .short rfl rest
  split
  · rename_i control
    have read : ∀ n < 0x20, hexNumber? (hexDigits 4 n) = some n := by decide
    exact .code (read c.toNat control) rest
  · rename_i quote escape _ _ _ _ _ printable
    exact .plain (Nat.le_of_not_lt printable) quote escape rest

theorem escaped_text (s : List Char) : UnitsText (s.flatMap escapeChar) (unitsOf s) := by
  induction s with
  | nil => exact .nil
  | cons c s ih => exact escapeChar_text c ih

theorem writeString_text (s : String) : ValueText (writeString s).toList (.string (unitsOf s.toList)) := by
  rw [writeString, String.toList_ofList]
  exact .string (escaped_text s.toList)

theorem numeral_whole (n : Nat) : WholeText (numeral n).toList := by
  by_cases zero : n = 0
  · subst zero
    exact .zero
  · exact .digits (Text.numeral_digits n) (Text.numeral_first (Nat.pos_of_ne_zero zero))

def literalOf : Int → Literal
  | .ofNat n => ⟨false, (numeral n).toList, [], none⟩
  | .negSucc n => ⟨true, (numeral (n + 1)).toList, [], none⟩

theorem signedNumeral_text (i : Int) : LiteralText (Text.signedNumeral i).toList (literalOf i) := by
  cases i with
  | ofNat n =>
    have text := LiteralText.positive (numeral_whole n) .none .none
    rw [List.append_nil, List.append_nil] at text
    exact text
  | negSucc n =>
    have text := LiteralText.negative (numeral_whole (n + 1)) .none .none
    rw [List.append_nil, List.append_nil] at text
    rw [Text.signedNumeral, String.toList_append]
    exact text

theorem literalOf_integer? (i : Int) : (literalOf i).integer? = some i := by
  cases i with
  | ofNat n => simp [literalOf, Literal.integer?, Text.ofDigits_numeral]
  | negSucc n =>
    have size : (((n + 1 : Nat) : Int) = 0) = False := by simp; omega
    simp only [literalOf, Literal.integer?, Text.ofDigits_numeral, List.isEmpty_nil, Option.isNone_none, Bool.and_self,
      if_true, size, if_false]
    rfl

-- A tree that stands for a value, however it is spelt. No tree stands for a float.
inductive Spells : Tree → Value → Prop where
  | null : Spells .null .null
  | bool : Spells (.bool b) (.bool b)
  | int (same : l.integer? = some i.toInt) : Spells (.number l) (.int i)
  | str (same : text? units = some s) : Spells (.string units) (.str s)

theorem Spells.value? {t : Tree} {v : Value} (spells : Spells t v) : t.value? = some v := by
  rw [Tree.value?_eq]
  cases spells with
  | null | bool => rfl
  | @int l i same =>
    have signed : Number.isSigned i.toInt = true := Number.isSigned_iff.mpr ⟨i.le_toInt, i.toInt_lt⟩
    have word : l.word? = some i := by
      rw [Literal.word?, same]
      simp only [signed, if_true, Int64.ofInt_toInt]
    show l.value? = some (.int i)
    rw [Literal.value?, word]
  | @str units text same =>
    show (text? units).map Value.str = some (.str text)
    rw [same, Option.map_some]

theorem writeValue_text {v : Value} (floatless : ∀ x, v ≠ .float x) :
    ∃ text t, writeValue? v = some text ∧ ValueText text.toList t ∧ Spells t v := by
  cases v with
  | null => exact ⟨_, .null, rfl, .null, .null⟩
  | bool b =>
    cases b with
    | true => exact ⟨_, .bool true, rfl, .yes, .bool⟩
    | false => exact ⟨_, .bool false, rfl, .no, .bool⟩
  | int i => exact ⟨_, _, rfl, .number (signedNumeral_text i.toInt), .int (literalOf_integer? i.toInt)⟩
  | float x => exact absurd rfl (floatless x)
  | str s => exact ⟨_, _, rfl, writeString_text s, .str (text?_unitsOf s)⟩

def fieldText (name value : String) : String := writeString name ++ ":" ++ value

def objectText (members : List String) : String := "\x7b" ++ joined "," members ++ "\x7d"

theorem writeParam?_object (p : Param) :
    writeParam? p = (writeValue? p.value).map fun value =>
      objectText [fieldText "value" value, fieldText "param_type" (writeString p.type.name)] := by
  have first : "\x7b\"value\":" = "\x7b" ++ (writeString "value" ++ ":") := by decide
  have second : ",\"param_type\":" = "," ++ (writeString "param_type" ++ ":") := by decide
  rw [writeParam?, first, second]
  simp only [objectText, joined, fieldText, String.append_assoc]

def FieldOf (member : String) (field : String × Tree) : Prop :=
  ∃ units, text? units = some field.1 ∧ FieldText member.toList (units, field.2)

theorem fieldText_field (name : String) {value : String} {t : Tree} (text : ValueText value.toList t) :
    FieldOf (fieldText name value) (name, t) := by
  have blankless : Blanks [] := by simp [Blanks]
  refine ⟨unitsOf name.toList, text?_unitsOf name, ?_⟩
  have field := FieldText.mk blankless (escaped_text name.toList) blankless (.mk blankless text blankless)
  have spelt : (fieldText name value).toList =
      [] ++ '"' :: (name.toList.flatMap escapeChar ++ '"' :: ([] ++ ':' :: ([] ++ (value.toList ++ [])))) := by
    simp [fieldText, writeString]
  rw [spelt]
  exact field

def Unknown (member : String) : Prop :=
  ∃ field : String × Tree, FieldOf member field ∧ field.1 ≠ "value" ∧ field.1 ≠ "param_type"

theorem fields_joined {members : List String} {fields : List (String × Tree)}
    (each : List.Forall₂ FieldOf members fields) (filled : members ≠ []) :
    ∃ fs : List (Units × Tree), FieldsText (joined "," members).toList fs ∧
      fs.mapM (fun (units, t) => (text? units).map (·, t)) = some fields := by
  induction each with
  | nil => exact absurd rfl filled
  | @cons m f members fields field each ih =>
    obtain ⟨units, name, text⟩ := field
    cases members with
    | nil =>
      cases each
      exact ⟨[(units, f.2)], .last text, by simp [name]⟩
    | cons next members =>
      obtain ⟨fs, later, names⟩ := ih (List.cons_ne_nil _ _)
      refine ⟨(units, f.2) :: fs, ?_, by simp [name, names]⟩
      have whole := FieldsText.more text later
      have spelt : (joined "," (m :: next :: members)).toList =
          m.toList ++ ',' :: (joined "," (next :: members)).toList := by simp [joined]
      exact spelt ▸ whole

theorem objectText_text {members : List String} {fields : List (String × Tree)}
    (each : List.Forall₂ FieldOf members fields) :
    ∃ fs : List (Units × Tree), ValueText (objectText members).toList (.object fs) ∧
      fs.mapM (fun (units, t) => (text? units).map (·, t)) = some fields := by
  have spelt : (objectText members).toList = '\x7b' :: ((joined "," members).toList ++ ['\x7d']) := by
    simp [objectText]
  cases members with
  | nil =>
    cases each
    exact ⟨[], spelt ▸ .noFields (by simp [Blanks, joined]), rfl⟩
  | cons m members =>
    obtain ⟨fs, text, names⟩ := fields_joined each (List.cons_ne_nil _ _)
    exact ⟨fs, spelt ▸ .fields text, names⟩

def SpellsField (f : String × Tree) (field : String × Value) : Prop := f.1 = field.1 ∧ Spells f.2 field.2

-- A document of an object with these fields, in any order, each spelt in any way, and with others beside them.
inductive Describes (text : String) (fields : List (String × Value)) : Prop where
  | mk (document : ItemText text.toList (.object fs))
      (names : fs.mapM (fun (units, t) => (text? units).map (·, t)) = some found)
      (perm : found.Perm (own ++ others))
      (spelt : List.Forall₂ SpellsField own fields)
      (other : ∀ f ∈ others, f.1 ∉ fields.map Prod.fst) : Describes text fields

-- What a reader of JSON does, and what a writer of JSON does with the fields of an object.
def Reads (read : String → Option Tree) : Prop := ∀ text t, ItemText text.toList t → read text = some t

structure Flat (fields : List (String × Value)) : Prop where
  distinct : (fields.map Prod.fst).Nodup
  floatless : ∀ f ∈ fields, ∀ x, f.2 ≠ .float x

def Writes (write : List (String × Value) → Option String) : Prop :=
  ∀ fields, Flat fields → ∃ text, write fields = some text ∧ Describes text fields

theorem read_reads : Reads read := fun _ _ => read_document

def writeFields? (fields : List (String × Value)) : Option String :=
  (fields.mapM fun (name, v) => (writeValue? v).map (fieldText name)).map objectText

theorem writeFields_text {fields : List (String × Value)} (floatless : ∀ f ∈ fields, ∀ x, f.2 ≠ .float x) :
    ∃ members own, (fields.mapM fun (name, v) => (writeValue? v).map (fieldText name)) = some members ∧
      List.Forall₂ FieldOf members own ∧
      List.Forall₂ SpellsField own fields := by
  induction fields with
  | nil => exact ⟨[], [], rfl, .nil, .nil⟩
  | cons field fields ih =>
    obtain ⟨here, later⟩ := List.forall_mem_cons.mp floatless
    obtain ⟨members, own, written, each, spelt⟩ := ih later
    obtain ⟨value, t, wrote, text, spells⟩ := writeValue_text here
    refine ⟨fieldText field.1 value :: members, (field.1, t) :: own, ?_, .cons (fieldText_field field.1 text) each,
      .cons ⟨rfl, spells⟩ spelt⟩
    simp [wrote, written]

theorem unknown_fields (Other : String → Prop) {unknown : List String}
    (each : ∀ m ∈ unknown, ∃ field, FieldOf m field ∧ Other field.1) :
    ∃ fields, List.Forall₂ FieldOf unknown fields ∧ ∀ f ∈ fields, Other f.1 := by
  induction unknown with
  | nil => exact ⟨[], .nil, by simp⟩
  | cons m unknown ih =>
    obtain ⟨field, is, other⟩ := each m (List.mem_cons_self ..)
    obtain ⟨fields, are, others⟩ := ih fun m among => each m (List.mem_cons_of_mem _ among)
    exact ⟨field :: fields, .cons is are, List.forall_mem_cons.mpr ⟨other, others⟩⟩

theorem describes_object {members texts unknown : List String} {own : List (String × Tree)}
    {fields : List (String × Value)} (perm : members.Perm (texts ++ unknown)) (are : List.Forall₂ FieldOf texts own)
    (spelt : List.Forall₂ SpellsField own fields)
    (others : ∀ m ∈ unknown, ∃ field, FieldOf m field ∧ field.1 ∉ fields.map Prod.fst)
    {before after : String} (blankBefore : Blanks before.toList) (blankAfter : Blanks after.toList) :
    Describes (before ++ objectText members ++ after) fields := by
  obtain ⟨rest, unknown, other⟩ := unknown_fields (· ∉ fields.map Prod.fst) others
  obtain ⟨found, each, shuffled⟩ := List.perm_comp_forall₂ perm (List.rel_append are unknown)
  obtain ⟨fs, text, names⟩ := objectText_text each
  have document : ItemText (before ++ objectText members ++ after).toList (.object fs) := by
    rw [String.toList_append, String.toList_append, List.append_assoc]
    exact .mk blankBefore text blankAfter
  exact .mk document names shuffled spelt other

theorem writeFields?_writes : Writes writeFields? := by
  intro fields flat
  obtain ⟨members, own, written, each, spelt⟩ := writeFields_text flat.floatless
  have blankless : Blanks "".toList := by simp [Blanks]
  refine ⟨objectText members, by rw [writeFields?, written, Option.map_some], ?_⟩
  have alone : members.Perm (members ++ []) := .of_eq (List.append_nil members).symm
  have describes := describes_object alone each spelt (by simp) blankless blankless
  rwa [String.empty_append, String.append_empty] at describes

theorem field?_of_perm {fields others : List (String × Tree)} {name : String} {t : Tree}
    (perm : fields.Perm ((name, t) :: others)) (other : ∀ f ∈ others, f.1 ≠ name) :
    Tree.field? fields name = some t := by
  have unnamed : others.filter (·.1 == name) = [] := by
    simpa [List.filter_eq_nil_iff] using fun a b => other (a, b)
  have found := perm.filter (·.1 == name)
  rw [List.filter_cons_of_pos (by simp), unnamed, List.perm_singleton] at found
  rw [Tree.field?, found]

def fieldsOf (p : Param) : List (String × Value) := [("value", p.value), ("param_type", .str p.type.name)]

theorem flat_fieldsOf {p : Param} (floatless : ∀ x, p.value ≠ .float x) : Flat (fieldsOf p) where
  distinct := by simp [fieldsOf]
  floatless := by simpa [fieldsOf] using floatless

theorem writeParam?_fields (p : Param) : writeParam? p = writeFields? (fieldsOf p) := by
  rw [writeParam?_object, writeFields?, fieldsOf]
  cases written : writeValue? p.value with
  | none => simp [written]
  | some value =>
    have type : writeValue? (.str p.type.name) = some (writeString p.type.name) := rfl
    simp [written, type]

theorem Spells.paramType? {t : Tree} {type : ParamType} (spells : Spells t (.str type.name)) :
    t.paramType? = some type := by
  cases spells with
  | str same =>
    rw [Tree.paramType?, Tree.name?, same]
    exact ParamType.ofExactName?_name type

theorem Describes.read {text : String} {p : Param} (describes : Describes text (fieldsOf p))
    {read : String → Option Tree} (reads : Reads read) : readParamBy read text = some p := by
  obtain @⟨fs, found, own, others, document, names, perm, spelt, other⟩ := describes
  obtain _ | @⟨⟨_, value⟩, _, _, _, ⟨rfl, valued⟩, _ | @⟨⟨_, type⟩, _, _, _, ⟨rfl, typed⟩, ⟨⟩⟩⟩ := spelt
  have apart : ∀ f ∈ others, f.1 ≠ "value" ∧ f.1 ≠ "param_type" := by simpa [fieldsOf] using other
  have own : found.Perm (("value", value) :: ("param_type", type) :: others) := perm
  have first : Tree.field? found "value" = some value := by
    refine field?_of_perm own ?_
    simpa using fun a b among => (apart (a, b) among).1
  have second : Tree.field? found "param_type" = some type := by
    refine field?_of_perm (own.trans (.swap ..)) ?_
    simpa using fun a b among => (apart (a, b) among).2
  rw [readParamBy, reads text _ document, Option.bind_some, Tree.param?, names]
  simp only [Option.bind_eq_bind, Option.bind_some, first, second, valued.value?, typed.paramType?]

-- Null, booleans, integers and strings go through every writer and every reader of JSON, value and type alike,
-- whatever a string says; floats have no one spelling.
theorem params_survive_json (read : String → Option Tree) (reads : Reads read)
    (write : List (String × Value) → Option String) (writes : Writes write) (p : Param)
    (floatless : ∀ x, p.value ≠ .float x) :
    (∃ text, write (fieldsOf p) = some text ∧ readParamBy read text = some p ∧ readParam text = some p) ∧
      (∀ text, Describes text (fieldsOf p) → readParamBy read text = some p ∧ readParam text = some p) ∧
      ∃ value text, writeValue? p.value = some value ∧ writeParam? p = some text ∧
        text = objectText [fieldText "value" value, fieldText "param_type" (writeString p.type.name)] ∧
        (∃ t, ValueText text.toList t) ∧ readParamBy read text = some p ∧ readParam text = some p ∧
        ∀ members unknown : List String, (∀ m ∈ unknown, Unknown m) →
          members.Perm ([fieldText "value" value, fieldText "param_type" (writeString p.type.name)] ++ unknown) →
          ∀ before after : String, Blanks before.toList → Blanks after.toList →
            readParamBy read (before ++ objectText members ++ after) = some p ∧
              readParam (before ++ objectText members ++ after) = some p := by
  have found (text : String) (describes : Describes text (fieldsOf p)) :
      readParamBy read text = some p ∧ readParam text = some p :=
    ⟨describes.read reads, describes.read read_reads⟩
  have flat := flat_fieldsOf floatless
  refine ⟨?any, found, ?own⟩
  case any =>
    obtain ⟨text, wrote, describes⟩ := writes (fieldsOf p) flat
    exact ⟨text, wrote, found text describes⟩
  case own =>
    obtain ⟨value, t, written, text, valued⟩ := writeValue_text floatless
    have members := List.Forall₂.cons (fieldText_field "value" text)
      (.cons (fieldText_field "param_type" (writeString_text p.type.name)) .nil)
    have typed : Spells (.string (unitsOf p.type.name.toList)) (.str p.type.name) := .str (text?_unitsOf p.type.name)
    have spelt : List.Forall₂ SpellsField [("value", t), ("param_type", _)] (fieldsOf p) :=
      .cons ⟨rfl, valued⟩ (.cons ⟨rfl, typed⟩ .nil)
    have whole : writeParam? p = some (objectText [fieldText "value" value, fieldText "param_type"
        (writeString p.type.name)]) := by rw [writeParam?_object, written, Option.map_some]
    obtain ⟨_, wrote, describes⟩ := writeFields?_writes (fieldsOf p) flat
    obtain rfl := Option.some.inj ((whole.symm.trans (writeParam?_fields p)).trans wrote)
    obtain ⟨_, json, _⟩ := objectText_text members
    obtain ⟨any, own⟩ := found _ describes
    refine ⟨value, _, written, whole, rfl, ⟨_, json⟩, any, own, ?_⟩
    intro shuffled unknown others perm before after blankBefore blankAfter
    have other : ∀ m ∈ unknown, ∃ field, FieldOf m field ∧ field.1 ∉ (fieldsOf p).map Prod.fst := by
      intro m among
      obtain ⟨field, is, value, type⟩ := others m among
      exact ⟨field, is, by simp [fieldsOf, value, type]⟩
    exact found _ (describes_object perm members spelt other blankBefore blankAfter)

theorem numeric_string_survives_json :
    Reads read ∧ Writes writeFields? ∧ (∀ x, (Param.mk (.str "-12\x01\"") .int).value ≠ .float x) ∧
      readParam " \t\x7b\"param_type\":\"int\", \"note\" : [true,null ],\"value\":\"-12\\u0001\\\"\"\x7d\n" =
        some ⟨.str "-12\x01\"", .int⟩ := by
  have floatless : ∀ x, (Param.mk (.str "-12\x01\"") .int).value ≠ .float x := by simp
  refine ⟨read_reads, writeFields?_writes, floatless, ?_⟩
  obtain ⟨_, _, _, _, written, _, _, _, _, _, found⟩ :=
    params_survive_json read read_reads writeFields? writeFields?_writes ⟨.str "-12\x01\"", .int⟩ floatless
  obtain rfl := Option.some.inj written
  have blankless : Blanks [] := by simp [Blanks]
  have one : Blanks [' '] := by simp [Blanks, isBlank]
  have items : ValueText "[true,null ]".toList (.array [.bool true, .null]) :=
    .items (.more (.mk blankless .yes blankless) (.last (.mk blankless .null one)))
  have unknown : Unknown " \"note\" : [true,null ]" :=
    ⟨("note", _), ⟨_, text?_unitsOf "note", .mk one (escaped_text "note".toList) one (.mk one items blankless)⟩,
      by decide, by decide⟩
  have returns := found [fieldText "param_type" (writeString "int"), " \"note\" : [true,null ]",
    fieldText "value" (writeString "-12\x01\"")] [" \"note\" : [true,null ]"] (by simpa using unknown) (by decide)
    " \t" "\n" (by simp [Blanks, isBlank]) (by simp [Blanks, isBlank])
  have spelt : " \t" ++ objectText [fieldText "param_type" (writeString "int"), " \"note\" : [true,null ]",
      fieldText "value" (writeString "-12\x01\"")] ++ "\n" =
      " \t\x7b\"param_type\":\"int\", \"note\" : [true,null ],\"value\":\"-12\\u0001\\\"\"\x7d\n" := by decide
  rw [spelt] at returns
  exact returns.2

end SqlCompose.Json
