import SqlCompose.Proofs.Configurations
import SqlCompose.Proofs.TomlDocuments

namespace SqlCompose

namespace Toml

open Text (Digits isDigit numeral signedNumeral hexValue? ofDigits)

inductive Scalar : Item → Prop where
  | string : Scalar (.string text)
  | integer (signed : Number.isSigned n = true) : Scalar (.integer n)

structure Flat (fields : Fields) : Prop where
  distinct : (fields.map Prod.fst).Nodup
  scalar : ∀ f ∈ fields, Scalar f.2

-- What a writer of TOML does with such tables: it never fails, and its text is a document of the table's fields.
def Writes (write : Fields → Option String) : Prop :=
  ∀ fields, Flat fields →
    ∃ text written, write fields = some text ∧ DocumentText text.toList written ∧ written.Perm fields

def Reads (read : String → Option Fields) : Prop :=
  ∀ text written, DocumentText text.toList written → (written.map Prod.fst).Nodup →
    ∃ fields, read text = some fields ∧ ∀ key, lookup key fields = lookup key written

theorem read_reads : Reads read :=
  fun _ written document distinct => ⟨written, read_document document distinct, fun _ => rfl⟩

theorem Reads.shuffled {read : String → Option Fields} (reads : Reads read) {text : String} {written fields : Fields}
    (document : DocumentText text.toList written) (perm : written.Perm fields)
    (distinct : (fields.map Prod.fst).Nodup) :
    ∃ table, read text = some table ∧ ∀ key item, (key, item) ∈ fields → lookup key table = some item := by
  have own : (written.map Prod.fst).Nodup := (perm.map Prod.fst).nodup_iff.mpr distinct
  obtain ⟨table, found, same⟩ := reads text written document own
  refine ⟨table, found, fun key item member => ?_⟩
  rw [same]
  exact OrderedMap.lookup_of_mem own (perm.mem_iff.mpr member)

def writeItem? : Item → Option String
  | .string text => some (writeString text)
  | .integer n => some (signedNumeral n)
  | _ => none

def writeKey (key : String) : String :=
  if key ≠ "" ∧ key.toList.all isBare then key else writeString key

def writeTable? : Fields → Option String
  | [] => some ""
  | (key, item) :: fields => do
    let value ← writeItem? item
    let rest ← writeTable? fields
    some (line (writeKey key) value ++ rest)

theorem escapeChar_text (c : Char) {s t : List Char} (rest : BasicText s t) :
    BasicText (escapeChar c ++ s) (c :: t) := by
  unfold escapeChar
  split
  iterate 7 exact .escape (.short rfl) rest
  split
  · rename_i control
    have meant : ∀ n < 0x80, n < 0x20 ∨ n = 0x7f →
        scalar? ((Text.hexDigits 4 n).map Char.toUpper) = some (Char.ofNat n) := by decide
    have own := meant c.toNat (by omega) control
    rw [Char.ofNat_toNat] at own
    exact .escape (.four own) rest
  · rename_i quote escape _ _ _ _ _ printable
    refine .plain ?_ quote escape rest
    simp_all [isControl]

theorem writeString_text (s : String) : BasicText (s.toList.flatMap escapeChar) s.toList := by
  induction s.toList with
  | nil => exact .nil
  | cons c s ih => exact escapeChar_text c ih

theorem ofBase_digits {ds : List Char} (digits : ∀ c ∈ ds, isDigit c = true) : ofBase 10 ds = ofDigits ds := by
  rw [ofBase, ofDigits, Nat.ofDigitChars_eq_foldl]
  refine List.foldl_ext _ _ _ fun n c member => ?_
  have digit := digits c member
  simp only [isDigit, Bool.and_eq_true, decide_eq_true_eq] at digit
  simp [hexValue?, digit]

theorem digitsText_of_digits {ds : List Char} (digits : Digits ds) : DigitsText isDigit ds ds := by
  obtain ⟨filled, digits⟩ := digits
  induction ds with
  | nil => exact absurd rfl filled
  | cons c ds ih =>
    obtain ⟨digit, digits⟩ := List.forall_mem_cons.mp digits
    cases ds with
    | nil => exact .last digit
    | cons d ds => exact .more digit (ih (List.cons_ne_nil d ds) digits)

theorem numeral_text (n : Nat) :
    DigitsText isDigit (numeral n).toList (numeral n).toList ∧
      ((numeral n).toList = ['0'] ∨ (numeral n).toList.head? ≠ some '0') ∧ ofBase 10 (numeral n).toList = n := by
  have digits := Text.numeral_digits n
  refine ⟨digitsText_of_digits digits, ?_, (ofBase_digits digits.2).trans (Text.ofDigits_numeral n)⟩
  by_cases zero : n = 0
  · subst zero
    exact .inl rfl
  · exact .inr (Text.numeral_first (Nat.pos_of_ne_zero zero))

theorem signedNumeral_text (n : Int) : IntegerText (signedNumeral n).toList n := by
  cases n with
  | ofNat n =>
    obtain ⟨digits, first, value⟩ := numeral_text n
    have text := IntegerText.decimal .none digits first
    rw [value] at text
    exact text
  | negSucc n =>
    obtain ⟨digits, first, value⟩ := numeral_text (n + 1)
    have text := IntegerText.decimal .minus digits first
    rw [value] at text
    rw [signedNumeral, String.toList_append]
    exact text

theorem writeItem?_text {item : Item} (scalar : Scalar item) :
    ∃ text, writeItem? item = some text ∧ ValueText text.toList item := by
  cases scalar with
  | @string text =>
    refine ⟨_, rfl, ?_⟩
    have value := ValueText.string (.basic (writeString_text text))
    rw [String.ofList_toList] at value
    rw [writeString, String.toList_ofList]
    exact value
  | @integer n signed => exact ⟨_, rfl, .integer (signedNumeral_text n) signed⟩

theorem writeKey_text (key : String) : KeyText (writeKey key).toList key.toList := by
  unfold writeKey
  split
  · rename_i bare
    refine .bare ?_ (List.all_eq_true.mp bare.2)
    exact fun empty => bare.1 (String.toList_eq_nil_iff.mp empty)
  · rw [writeString, String.toList_ofList]
    exact .basic (writeString_text key)

theorem line_text {value : String} {item : Item} (key : String) (text : ValueText value.toList item) {rest : String}
    {fields : Fields} (document : DocumentText rest.toList fields) :
    DocumentText (line (writeKey key) value ++ rest).toList ((key, item) :: fields) := by
  have blankless : Spaces [] := by simp [Spaces]
  have one : Spaces [' '] := by simp [Spaces, isSpace]
  have written := LineText.field blankless (writeKey_text key) one one text blankless .none
  have whole := DocumentText.more written .feed document
  rw [String.ofList_toList] at whole
  simpa [line] using whole

theorem writeTable?_text {fields : Fields} (scalar : ∀ f ∈ fields, Scalar f.2) :
    ∃ text, writeTable? fields = some text ∧ DocumentText text.toList fields := by
  induction fields with
  | nil =>
    have blankless : Spaces [] := by simp [Spaces]
    exact ⟨_, rfl, .last (.blank blankless .none)⟩
  | cons f fields ih =>
    obtain ⟨own, scalar⟩ := List.forall_mem_cons.mp scalar
    obtain ⟨value, wrote, text⟩ := writeItem?_text own
    obtain ⟨rest, later, document⟩ := ih scalar
    refine ⟨_, ?_, line_text f.1 text document⟩
    simp only [writeTable?, wrote, later, Option.bind_eq_bind, Option.bind_some]

theorem writeTable?_writes : Writes writeTable? := by
  intro fields flat
  obtain ⟨text, wrote, document⟩ := writeTable?_text flat.scalar
  exact ⟨text, fields, wrote, document, .refl _⟩

end Toml

namespace Config

def table (c : Config) : Toml.Fields := [("driver", .string c.driver), ("per_page", .integer c.perPage.toNat)]

theorem writeTable?_table (c : Config) : Toml.writeTable? c.table = some c.toToml := by
  have driver : Toml.writeKey "driver" = "driver" := by decide
  have perPage : Toml.writeKey "per_page" = "per_page" := by decide
  simp only [table, Toml.writeTable?, Toml.writeItem?, driver, perPage, Option.bind_eq_bind, Option.bind_some, toToml,
    String.append_empty]
  rfl

variable {c : Config}

theorem flat_table (small : c.perPage.toNat ≤ 9223372036854775807) : Toml.Flat c.table where
  distinct := by simp [table]
  scalar := by
    have signed : Number.isSigned c.perPage.toNat = true := Number.isSigned_iff.mpr (by omega)
    simp only [table, List.forall_mem_cons]
    exact ⟨.string, .integer signed, by simp⟩

theorem settle_trimmed (trimmed : Text.Trimmed c.driver) : c.settle none = c := by
  rw [settle, Option.getD_none, trimmed.trim_eq]

theorem holds_text (text : String) : FileState.Holds (.bytes text.toUTF8) text := by
  refine .bytes ?_
  rw [String.fromUTF8?, String.toUTF8_eq_toByteArray, dif_pos text.isValidUTF8]
  rfl

theorem toToml_document (flat : Toml.Flat c.table) : Toml.DocumentText c.toToml.toList c.table := by
  obtain ⟨text, wrote, document⟩ := Toml.writeTable?_text flat.scalar
  obtain rfl := Option.some.inj ((writeTable?_table c).symm.trans wrote)
  exact document

theorem load_document {read : String → Option Toml.Fields} (reads : Toml.Reads read) {text : String}
    {written : Toml.Fields} (document : Toml.DocumentText text.toList written) (perm : written.Perm c.table)
    (flat : Toml.Flat c.table) (sound : c.Sound) : loadBy read (.bytes text.toUTF8) none = .ok c := by
  obtain ⟨fields, table, found⟩ := reads.shuffled document perm flat.distinct
  have driver : GivesDriver fields c.driver := .field (found "driver" _ (by simp [Config.table]))
  have perPage : GivesPerPage fields c.perPage := .field (found "per_page" _ (by simp [Config.table]))
  have offered : ofFile read (.bytes text.toUTF8) = .ok c :=
    (ofFile_holds (holds_text text)).trans (ofToml_given table driver perPage)
  have kept := settle_trimmed sound.trimmed
  have settled : c.resolve none = .ok (c.settle none) := resolve_sound (by rw [kept]; exact sound.named) sound.paged
  rw [kept] at settled
  simp only [loadBy, offered, Except.bind, settled]

-- A driver without blanks at its ends and a size of pages that TOML can write come back through every
-- reader of TOML, whichever writer saved them.
theorem saved_configuration_loads (read : String → Option Toml.Fields) (reads : Toml.Reads read)
    (write : Toml.Fields → Option String) (writes : Toml.Writes write) (c : Config)
    (named : c.driver ≠ "") (trimmed : Text.Trimmed c.driver) (paged : 1 ≤ c.perPage.toNat)
    (small : c.perPage.toNat ≤ 9223372036854775807) :
    (∃ text, write c.table = some text ∧ loadBy read (.bytes text.toUTF8) none = .ok c ∧
        load (.bytes text.toUTF8) none = .ok c) ∧
      Toml.DocumentText c.toToml.toList c.table ∧ loadBy read c.save none = .ok c ∧ load c.save none = .ok c := by
  have sound : c.Sound := ⟨UInt64.lt_iff_toNat_lt.mpr paged, named, trimmed⟩
  have flat := flat_table small
  have own := toToml_document flat
  obtain ⟨text, written, wrote, document, perm⟩ := writes c.table flat
  refine ⟨⟨text, wrote, ?_, ?_⟩, own, ?_, ?_⟩
  · exact load_document reads document perm flat sound
  · exact load_document Toml.read_reads document perm flat sound
  · exact load_document reads own (.refl _) flat sound
  · exact load_document Toml.read_reads own (.refl _) flat sound

theorem marked_driver_loads :
    Toml.Reads Toml.read ∧ Toml.Writes Toml.writeTable? ∧
      "pgsql = \u00e9 # 1" ≠ "" ∧ Text.Trimmed "pgsql = \u00e9 # 1" ∧
      load (.bytes "driver = \"pgsql = \u00e9 # 1\"\nper_page = 9223372036854775807\n".toUTF8) none =
        .ok ⟨"pgsql = \u00e9 # 1", 9223372036854775807⟩ := by
  have trimmed : Text.Trimmed "pgsql = \u00e9 # 1" := ⟨by rintro c ⟨⟩; rfl, by rintro c ⟨⟩; rfl⟩
  refine ⟨Toml.read_reads, Toml.writeTable?_writes, by decide, trimmed, ?_⟩
  obtain ⟨⟨text, wrote, _, loads⟩, _⟩ := saved_configuration_loads Toml.read Toml.read_reads Toml.writeTable?
    Toml.writeTable?_writes ⟨"pgsql = \u00e9 # 1", 9223372036854775807⟩ (by decide) trimmed (by decide) (by decide)
  rw [writeTable?_table] at wrote
  obtain rfl := Option.some.inj wrote
  have spelt : toToml ⟨"pgsql = \u00e9 # 1", 9223372036854775807⟩ =
      "driver = \"pgsql = \u00e9 # 1\"\nper_page = 9223372036854775807\n" := by decide
  rw [spelt] at loads
  exact loads

end Config

end SqlCompose
