import SqlCompose.Config.File
import SqlCompose.Proofs.Latest
import SqlCompose.Proofs.Trimming

namespace SqlCompose

open Log (latest?)
open Text (trim Trimmed)

namespace FileState

inductive Holds : FileState → String → Prop where
  | bytes (decoded : String.fromUTF8? content = some text) : Holds (.bytes content) text

inductive Textless : FileState → Prop where
  | inaccessible : Textless .inaccessible
  | undecodable (undecoded : String.fromUTF8? content = none) : Textless (.bytes content)

end FileState

namespace Config

-- What the fields of a document give for a driver and for the size of pages: the default where they are left out.
inductive GivesDriver (fields : Toml.Fields) : String → Prop where
  | default (absent : Toml.lookup "driver" fields = none) : GivesDriver fields "sqlite"
  | field (found : Toml.lookup "driver" fields = some (.string name)) : GivesDriver fields name

inductive GivesPerPage (fields : Toml.Fields) : UInt64 → Prop where
  | default (absent : Toml.lookup "per_page" fields = none) : GivesPerPage fields 10
  | field (found : Toml.lookup "per_page" fields = some (.integer n.toNat)) : GivesPerPage fields n

inductive Mistyped (fields : Toml.Fields) : Prop where
  | driver (found : Toml.lookup "driver" fields = some item) (other : ∀ name, item ≠ .string name)
  | perPage (found : Toml.lookup "per_page" fields = some item) (other : ∀ n : UInt64, item ≠ .integer n.toNat)

inductive Offers : FileState → Config → Prop where
  | defaults : Offers .missing {}
  | document (holds : file.Holds text) (read : Toml.read text = some fields) (named : GivesDriver fields name)
      (paged : GivesPerPage fields n) : Offers file ⟨name, n⟩

inductive Malformed : FileState → Prop where
  | unreadable (holds : file.Holds text) (unread : Toml.read text = none) : Malformed file
  | mistyped (holds : file.Holds text) (read : Toml.read text = some fields) (mistyped : Mistyped fields) :
      Malformed file

inductive Reads (file : FileState) : Except ConfigError Config → Prop where
  | offered (offers : Offers file c) : Reads file (.ok c)
  | textless (textless : file.Textless) : Reads file (.error .inaccessibleFile)
  | malformed (malformed : Malformed file) : Reads file (.error .unreadableDocument)

-- What comes of loading, in the order in which it fails.
inductive Loads (file : FileState) (environment : Option String) : Except ConfigError Config → Prop where
  | textless (textless : file.Textless) : Loads file environment (.error .inaccessibleFile)
  | malformed (malformed : Malformed file) : Loads file environment (.error .unreadableDocument)
  | nameless (offers : Offers file offered) (nameless : (offered.settle environment).driver = "") :
      Loads file environment (.error .emptyDriver)
  | pageless (offers : Offers file offered) (named : (offered.settle environment).driver ≠ "")
      (pageless : offered.perPage = 0) : Loads file environment (.error (.invalidPerPage 0))
  | loaded (offers : Offers file offered) (named : (offered.settle environment).driver ≠ "")
      (paged : 0 < offered.perPage) :
      Loads file environment (.ok (offered.settle environment))

variable {fields : Toml.Fields} {file : FileState} {environment : Option String} {c offered : Config}
  {e : ConfigError}

theorem driverField_ok {name : String} : driverField fields = .ok name ↔ GivesDriver fields name := by
  unfold driverField
  constructor
  · intro gives
    split at gives
    · cases gives
      exact .default ‹_›
    · cases gives
      exact .field ‹_›
    · cases gives
  · intro gives
    cases gives with
    | default absent => rw [absent]
    | field found => rw [found]

theorem driverField_error (failed : driverField fields = .error e) : e = .unreadableDocument ∧ Mistyped fields := by
  unfold driverField at failed
  split at failed
  · cases failed
  · cases failed
  · rename_i other found
    cases failed
    exact ⟨rfl, .driver found other⟩

theorem word_iff (i : Int) : (0 ≤ i ∧ i < UInt64.size) ↔ ∃ n : UInt64, i = n.toNat := by
  constructor
  · intro word
    refine ⟨UInt64.ofNat i.toNat, ?_⟩
    rw [UInt64.toNat_ofNat_of_lt' (by omega)]
    omega
  · rintro ⟨n, rfl⟩
    have bound := n.toNat_lt
    exact ⟨by omega, by simp only [UInt64.size]; omega⟩

theorem perPageField_ok {n : UInt64} : perPageField fields = .ok n ↔ GivesPerPage fields n := by
  unfold perPageField
  constructor
  · intro gives
    split at gives
    · cases gives
      exact .default ‹_›
    · rename_i i found
      split at gives
      · rename_i word
        obtain ⟨m, rfl⟩ := (word_iff i).mp word
        rw [Int.toNat_natCast, UInt64.ofNat_toNat] at gives
        cases gives
        exact .field found
      · cases gives
    · cases gives
  · intro gives
    cases gives with
    | default absent => rw [absent]
    | field found =>
      rw [found]
      simp only [if_pos ((word_iff n.toNat).mpr ⟨n, rfl⟩), Int.toNat_natCast, UInt64.ofNat_toNat]

theorem perPageField_error (failed : perPageField fields = .error e) : e = .unreadableDocument ∧ Mistyped fields := by
  unfold perPageField at failed
  split at failed
  · cases failed
  · rename_i i found
    split at failed
    · cases failed
    · rename_i wide
      cases failed
      refine ⟨rfl, .perPage found fun n same => wide ((word_iff i).mpr ⟨n, ?_⟩)⟩
      exact Toml.Item.integer.inj same
  · rename_i other found
    cases failed
    exact ⟨rfl, .perPage found fun n => other n.toNat⟩

theorem Mistyped.not_given {name : String} {n : UInt64} (mistyped : Mistyped fields) (named : GivesDriver fields name)
    (paged : GivesPerPage fields n) : False := by
  cases mistyped with
  | driver found other =>
    cases named with
    | default absent => simp [absent] at found
    | field there => exact other _ (Option.some.inj (found.symm.trans there))
  | perPage found other =>
    cases paged with
    | default absent => simp [absent] at found
    | field there => exact other _ (Option.some.inj (found.symm.trans there))

theorem reads_ofToml {text : String} (holds : file.Holds text) : Reads file (ofToml Toml.read text) := by
  unfold ofToml
  split
  · exact .malformed (.unreadable holds ‹_›)
  · rename_i fields read
    cases named : driverField fields with
    | error e =>
      obtain ⟨rfl, mistyped⟩ := driverField_error named
      exact .malformed (.mistyped holds read mistyped)
    | ok name =>
      cases paged : perPageField fields with
      | error e =>
        obtain ⟨rfl, mistyped⟩ := perPageField_error paged
        exact .malformed (.mistyped holds read mistyped)
      | ok n => exact .offered (.document holds read (driverField_ok.mp named) (perPageField_ok.mp paged))

theorem reads_ofFile (file : FileState) : Reads file (ofFile Toml.read file) := by
  unfold ofFile
  split
  · exact .offered .defaults
  · exact .textless .inaccessible
  · split
    · exact reads_ofToml (.bytes ‹_›)
    · exact .textless (.undecodable ‹_›)

theorem ofToml_mistyped {text : String} (read : Toml.read text = some fields) (mistyped : Mistyped fields) :
    ofToml Toml.read text = .error .unreadableDocument := by
  rw [ofToml, read]
  cases named : driverField fields with
  | error e =>
    obtain ⟨rfl, _⟩ := driverField_error named
    simp only [named, bind, Except.bind]
  | ok name =>
    cases paged : perPageField fields with
    | error e =>
      obtain ⟨rfl, _⟩ := perPageField_error paged
      simp only [named, paged, bind, Except.bind]
    | ok n => exact (mistyped.not_given (driverField_ok.mp named) (perPageField_ok.mp paged)).elim

theorem ofFile_holds {read : String → Option Toml.Fields} {text : String} (holds : file.Holds text) :
    ofFile read file = ofToml read text := by
  cases holds with
  | bytes decoded => simp only [ofFile, decoded]

theorem ofToml_given {read : String → Option Toml.Fields} {text name : String} {n : UInt64}
    (found : read text = some fields) (named : GivesDriver fields name) (paged : GivesPerPage fields n) :
    ofToml read text = .ok ⟨name, n⟩ := by
  rw [ofToml, found]
  simp only [driverField_ok.mpr named, perPageField_ok.mpr paged, bind, Except.bind]

theorem Reads.eq {result : Except ConfigError Config} (reads : Reads file result) :
    ofFile Toml.read file = result := by
  cases reads with
  | offered offers =>
    cases offers with
    | defaults => rfl
    | document holds read named paged => exact (ofFile_holds holds).trans (ofToml_given read named paged)
  | textless textless =>
    cases textless with
    | inaccessible => rfl
    | undecodable undecoded => simp only [ofFile, undecoded]
  | malformed malformed =>
    cases malformed with
    | unreadable holds unread => rw [ofFile_holds holds, ofToml, unread]
    | mistyped holds read mistyped => rw [ofFile_holds holds, ofToml_mistyped read mistyped]

@[simp] theorem settle_driver (c : Config) (environment : Option String) :
    (c.settle environment).driver = trim (environment.getD c.driver) := by simp only [settle]

@[simp] theorem settle_perPage (c : Config) (environment : Option String) :
    (c.settle environment).perPage = c.perPage := by simp only [settle]

theorem resolve_nameless (nameless : (c.settle environment).driver = "") :
    c.resolve environment = .error .emptyDriver := by
  rw [resolve, check, nameless]
  rfl

theorem resolve_pageless (named : (c.settle environment).driver ≠ "") (pageless : c.perPage = 0) :
    c.resolve environment = .error (.invalidPerPage 0) := by
  rw [resolve, check, if_neg (by simpa using named), settle_perPage, pageless]
  rfl

theorem resolve_sound (named : (c.settle environment).driver ≠ "") (paged : 0 < c.perPage) :
    c.resolve environment = .ok (c.settle environment) := by
  rw [resolve, check, if_neg (by simpa using named), settle_perPage, if_neg (UInt64.pos_iff_ne_zero.mp paged)]
  rfl

theorem load_of_ok (read : ofFile Toml.read file = .ok c) : load file environment = c.resolve environment := by
  simp only [load, loadBy, read, Except.bind]

theorem load_of_error (unread : ofFile Toml.read file = .error e) : load file environment = .error e := by
  simp only [load, loadBy, unread, Except.bind]

theorem Loads.eq {result : Except ConfigError Config} (loads : Loads file environment result) :
    load file environment = result := by
  cases loads with
  | textless textless => exact load_of_error (Reads.textless textless).eq
  | malformed malformed => exact load_of_error (Reads.malformed malformed).eq
  | nameless offers nameless => exact (load_of_ok (Reads.offered offers).eq).trans (resolve_nameless nameless)
  | pageless offers named pageless =>
    exact (load_of_ok (Reads.offered offers).eq).trans (resolve_pageless named pageless)
  | loaded offers named paged => exact (load_of_ok (Reads.offered offers).eq).trans (resolve_sound named paged)

theorem loads_load (file : FileState) (environment : Option String) :
    Loads file environment (load file environment) := by
  have reads := reads_ofFile file
  generalize there : ofFile Toml.read file = read at reads
  cases reads with
  | textless textless =>
    rw [load_of_error there]
    exact .textless textless
  | malformed malformed =>
    rw [load_of_error there]
    exact .malformed malformed
  | @offered c offers =>
    rw [load_of_ok there]
    by_cases named : (c.settle environment).driver = ""
    · rw [resolve_nameless named]
      exact .nameless offers named
    · by_cases paged : c.perPage = 0
      · rw [resolve_pageless named paged]
        exact .pageless offers named paged
      · have positive := UInt64.pos_iff_ne_zero.mpr paged
        rw [resolve_sound named positive]
        exact .loaded offers named positive

theorem load_iff {result : Except ConfigError Config} :
    load file environment = result ↔ Loads file environment result :=
  ⟨fun same => same ▸ loads_load file environment, Loads.eq⟩

theorem settle_settle (c : Config) (environment : Option String) :
    (c.settle environment).settle environment = c.settle environment := by
  cases environment with
  | none => simp only [settle, Option.getD_none, Text.trim_trim]
  | some name => simp only [settle, Option.getD_some]

theorem loads_ok (loads : Loads file environment (.ok c)) :
    ∃ offered, Offers file offered ∧ c = offered.settle environment ∧
      (offered.settle environment).driver ≠ "" ∧ 0 < offered.perPage := by
  generalize is : Except.ok c = result at loads
  cases loads with
  | @loaded offered offers named paged => exact ⟨offered, offers, Except.ok.inj is, named, paged⟩
  | _ => cases is

theorem resolve_settle (named : (c.settle environment).driver ≠ "") (paged : 0 < c.perPage) :
    (c.settle environment).resolve environment = .ok (c.settle environment) := by
  have again := c.settle_settle environment
  have positive : 0 < (c.settle environment).perPage := by rwa [settle_perPage]
  rw [resolve_sound (by rwa [again]) positive, again]

theorem loads_inaccessibleFile : Loads file environment (.error .inaccessibleFile) ↔ file.Textless := by
  constructor
  · rintro ⟨⟩
    assumption
  · exact .textless

theorem loads_unreadableDocument : Loads file environment (.error .unreadableDocument) ↔ Malformed file := by
  constructor
  · rintro ⟨⟩
    assumption
  · exact .malformed

theorem loads_emptyDriver : Loads file environment (.error .emptyDriver) ↔
    ∃ offered, Offers file offered ∧ (offered.settle environment).driver = "" := by
  constructor
  · rintro ⟨⟩
    exact ⟨_, ‹_›, ‹_›⟩
  · rintro ⟨offered, offers, nameless⟩
    exact .nameless offers nameless

theorem loads_invalidPerPage {n : UInt64} : Loads file environment (.error (.invalidPerPage n)) ↔
    n = 0 ∧ ∃ offered, Offers file offered ∧ (offered.settle environment).driver ≠ "" ∧ offered.perPage = 0 := by
  constructor
  · rintro ⟨⟩
    exact ⟨rfl, _, ‹_›, ‹_›, ‹_›⟩
  · rintro ⟨rfl, offered, offers, named, pageless⟩
    exact .pageless offers named pageless

structure Sound (c : Config) : Prop where
  paged : 0 < c.perPage
  named : c.driver ≠ ""
  trimmed : Trimmed c.driver

theorem sound_default : Sound {} where
  paged := by decide
  named := by decide
  trimmed := ⟨by rintro c ⟨⟩; rfl, by rintro c ⟨⟩; rfl⟩

theorem sound_of_load (loads : load file environment = .ok c) : c.Sound := by
  obtain ⟨offered, _, rfl, named, paged⟩ := loads_ok (load_iff.mp loads)
  refine ⟨?_, named, ?_⟩
  · rwa [settle_perPage]
  · rw [settle_driver]
    exact Text.trim_trimmed _

end Config

abbrev Attempt := FileState × Option String

namespace Installation

open Config (Offers Malformed Sound)

variable {i : Installation} {a : Attempt}

def attempt (i : Installation) (a : Attempt) : Installation := (i.init a.1 a.2).1

def loaded? (a : Attempt) : Option Config := (Config.load a.1 a.2).toOption

theorem attempt_config (i : Installation) (a : Attempt) : (i.attempt a).config = (loaded? a).or i.config := by
  unfold attempt init loaded?
  cases Config.load a.1 a.2 <;> rfl

theorem attempt_sound (sound : i.current.Sound) (a : Attempt) : (i.attempt a).current.Sound := by
  unfold attempt init
  split
  · exact Config.sound_of_load ‹_›
  · exact sound

theorem init_failed {file : FileState} {environment : Option String} {e : ConfigError}
    (failed : (i.init file environment).2 = some e) :
    Config.load file environment = .error e ∧ (i.init file environment).1 = i := by
  unfold init at failed ⊢
  split at failed
  · cases failed
  · cases failed
    exact ⟨‹_›, rfl⟩

theorem attempts_config (i : Installation) (attempts : List Attempt) :
    (attempts.foldl attempt i).config = (latest? loaded? attempts).or i.config := by
  induction attempts using List.reverseRecOn with
  | nil => rfl
  | append_singleton earlier a ih =>
    rw [List.foldl_concat, attempt_config, ih, Log.latest?_concat, Option.or_assoc]

theorem attempts_sound (sound : i.current.Sound) (attempts : List Attempt) :
    (attempts.foldl attempt i).current.Sound := by
  induction attempts generalizing i with
  | nil => exact sound
  | cons a rest ih => exact ih (attempt_sound sound a)

-- A configuration loads exactly if its file offers one that has, with the environment's driver, a name and a size of
-- pages; the one in force is the one that was loaded last.
theorem last_loaded_in_force :
    (∀ attempts : List Attempt,
      (attempts.foldl attempt {}).current = (latest? loaded? attempts).getD {} ∧
        (attempts.foldl attempt {}).current.Sound) ∧
    (∀ (i : Installation) file environment e, (i.init file environment).2 = some e →
      Config.load file environment = .error e ∧ (i.init file environment).1 = i) ∧
    ∀ file environment,
      (∀ c, Config.load file environment = .ok c →
        c.Sound ∧ c.resolve environment = .ok c ∧
        ∃ offered, Offers file offered ∧ c.driver = trim (environment.getD offered.driver) ∧
          c.perPage = offered.perPage) ∧
      (Config.load file environment = .error .inaccessibleFile ↔ file.Textless) ∧
      (Config.load file environment = .error .unreadableDocument ↔ Malformed file) ∧
      (Config.load file environment = .error .emptyDriver ↔
        ∃ offered, Offers file offered ∧ trim (environment.getD offered.driver) = "") ∧
      ∀ n, Config.load file environment = .error (.invalidPerPage n) ↔
        n = 0 ∧ ∃ offered, Offers file offered ∧ trim (environment.getD offered.driver) ≠ "" ∧ offered.perPage = 0 := by
  refine ⟨fun attempts => ⟨?_, attempts_sound (i := {}) Config.sound_default attempts⟩, fun i _ _ _ => init_failed, ?_⟩
  · rw [current, attempts_config, Option.or_none]
  intro file environment
  refine ⟨fun c loads => ?_, Config.load_iff.trans Config.loads_inaccessibleFile,
    Config.load_iff.trans Config.loads_unreadableDocument, ?_, fun n => ?_⟩
  · obtain ⟨offered, offers, rfl, named, paged⟩ := Config.loads_ok (Config.load_iff.mp loads)
    refine ⟨Config.sound_of_load loads, Config.resolve_settle named paged, offered, offers, ?_, ?_⟩
    · rw [Config.settle_driver]
    · rw [Config.settle_perPage]
  · simpa only [Config.settle_driver] using Config.load_iff.trans Config.loads_emptyDriver
  · simpa only [Config.settle_driver] using Config.load_iff.trans Config.loads_invalidPerPage

def mixed : List Attempt := [
  (.missing, none),
  (.bytes "driver = \" \"\nper_page = 25\n".toUTF8, some " pgsql\t"),
  (.inaccessible, some "mysql"),
  (.bytes ⟨#[0xff]⟩, none),
  (.bytes "driver = 3\nper_page = 0\n".toUTF8, some "mysql"),
  (.bytes "per_page = 0\n".toUTF8, some " "),
  (.bytes "per_page = 0\n".toUTF8, some "mysql")]

theorem last_loaded_in_force_mixed :
    (mixed.foldl attempt {}).current = ⟨"pgsql", 25⟩ ∧
      mixed.map (fun a => (({} : Installation).init a.1 a.2).2) =
        [none, none, some .inaccessibleFile, some .inaccessibleFile, some .unreadableDocument, some .emptyDriver,
          some (.invalidPerPage 0)] := by
  have loaded : (latest? loaded? mixed).getD {} = ⟨"pgsql", 25⟩ := by decide +kernel
  exact ⟨(last_loaded_in_force.1 mixed).1.trans loaded, by decide +kernel⟩

end Installation

end SqlCompose
