import TenantSizing.CommandLine
import TenantSizing.Proofs.DocumentFaults
import TenantSizing.Proofs.ReorderedRules

namespace TenantSizing

namespace Yaml.Value

theorem get?_of_not_mapping {value : Value} (h : value.isMapping = false) (key : String) :
    value.get? key = none := by
  cases value with
  | mapping entries => cases h
  | _ => rfl

theorem isMapping_of_get? {value found : Value} {key : String} (h : value.get? key = some found) :
    value.isMapping = true := by
  cases value with
  | mapping entries => rfl
  | _ => cases h

theorem entries?_tree (value : Value) :
    value.tree.entries? = if value.isMapping then some value.tree.entries else none := by
  cases value with
  | mapping entries => rw [tree_mapping]; rfl
  | sequence items => rw [tree_sequence]; rfl
  | _ => rfl

theorem get_tree (value : Value) (key : String) :
    value.tree.get key = ((value.get? key).map tree).getD .null := by
  cases value with
  | mapping entries =>
    rw [tree_mapping, get?_mapping, Tree.get_map, Keyed.lookup_map _ fun _ => Value.tree]
  | sequence items => rw [tree_sequence]; rfl
  | _ => rfl

/-- A record of rules: a map with a string as its name, and a map or null as its spec. -/
structure IsRecord (record : Value) : Prop where
  mapping : record.isMapping = true
  name : ∃ name, record.get? "name" = some (.text name)
  spec : ∀ spec, record.get? "spec" = some spec → spec.isNull = true ∨ spec.isMapping = true

/-- The records that a document lists. Null lists none, and so does an empty list of pairs. -/
inductive Lists : Value → List Value → Prop where
  | null : Lists .null []
  | noPairs : Lists (.pairs []) []
  | sequence {records : List Value} (h : ∀ record ∈ records, record.IsRecord) :
      Lists (.sequence records) records

theorem Lists.unique {value : Value} {records others : List Value} (h : value.Lists records)
    (h' : value.Lists others) : records = others := by
  cases h <;> cases h' <;> rfl

theorem Lists.isRecord {value : Value} {records : List Value} (h : value.Lists records) :
    ∀ record ∈ records, record.IsRecord := by
  cases h with
  | sequence all => exact all
  | _ => exact nofun

def isNamed (operand : String) (record : Value) : Bool :=
  match record.get? "name" with
  | some (.text name) => name = operand
  | _ => false

/-- The last record of an operand. -/
def lastRecord? (records : List Value) (operand : String) : Option Value :=
  records.reverse.find? (isNamed operand)

/-- The rules that records state for a kind of an operand: what is there under the kind in the spec
of its last record, if that is a map. -/
def ruleMap? (records : List Value) (operand kind : String) : Option Value :=
  (((lastRecord? records operand).bind (·.get? "spec")).bind (·.get? kind)).filter isMapping

end Yaml.Value

namespace RuleSet

open Yaml
open Value (Lists lastRecord? ruleMap?)

/-- What is kept of a record. -/
def entryOf (record : Value) : String × OperandSpec :=
  (match record.get? "name" with
    | some (.text name) => name
    | _ => "",
    { written := (record.get? "spec").getD .null, rules := record.tree.get "spec" })

def ofRecords (records : List Value) : RuleSet :=
  { specs := (records.map entryOf).foldl
      (fun specs record => Keyed.insert specs record.1 record.2) [] }

theorem readRecord_ok {record : Value} (h : record.IsRecord) (position : Nat) :
    readRecord position record record.tree = .ok (entryOf record) := by
  obtain ⟨name, named⟩ := h.name
  have kind : (((record.get? "spec").getD .null).isNull ||
      ((record.get? "spec").getD .null).isMapping) = true := by
    cases there : record.get? "spec" with
    | none => rfl
    | some spec => simpa using h.spec spec there
  unfold readRecord entryOf
  rw [named]
  dsimp only
  rw [if_pos kind]

theorem readRecord_fails {record : Value} (h : ¬record.IsRecord) (position : Nat) :
    ∃ fault, readRecord position record record.tree = .error fault := by
  unfold readRecord
  split
  · rename_i name named
    dsimp only
    split
    · rename_i kind
      refine absurd ⟨Value.isMapping_of_get? named, ⟨name, named⟩, fun spec there => ?_⟩ h
      rw [there] at kind
      simpa using kind
    · exact ⟨_, rfl⟩
  · exact ⟨_, rfl⟩

theorem readRecords_cases (records : List Value) :
    (∀ record ∈ records, record.IsRecord) ∧
        readRecords (records.zip (records.map Value.tree)) = .ok (records.map entryOf) ∨
      (¬∀ record ∈ records, record.IsRecord) ∧
        ∃ fault, readRecords (records.zip (records.map Value.tree)) = .error fault := by
  unfold readRecords
  -- the positions only go into the faults
  generalize 0 = start
  induction records generalizing start with
  | nil => exact .inl ⟨by simp, rfl⟩
  | cons record rest ih =>
    rw [List.map_cons, List.zip_cons_cons, List.zipIdx_cons, List.mapM_cons]
    dsimp only
    by_cases first : record.IsRecord
    · rw [readRecord_ok first]
      rcases ih (start + 1) with ⟨others, read⟩ | ⟨wrong, fault, read⟩
      · rw [read]
        exact .inl ⟨by simpa using ⟨first, others⟩, rfl⟩
      · rw [read]
        refine .inr ⟨fun all => wrong fun other ho => ?_, fault, rfl⟩
        exact all other (List.mem_cons_of_mem _ ho)
    · obtain ⟨fault, read⟩ := readRecord_fails first start
      rw [read]
      exact .inr ⟨fun all => first (all record List.mem_cons_self), fault, rfl⟩

/-- A document that lists records states them; any other is refused. -/
theorem ofDocument_cases (value : Value) :
    (∃ records, Lists value records ∧ ofDocument value value.tree = .ok (ofRecords records)) ∨
      (∀ records, ¬Lists value records) ∧ ∃ fault, ofDocument value value.tree = .error fault := by
  cases value with
  | sequence records =>
    unfold ofDocument
    rw [Value.tree_sequence]
    dsimp only [Tree.items]
    rcases readRecords_cases records with ⟨all, read⟩ | ⟨wrong, fault, read⟩
    · rw [read]
      exact .inl ⟨records, .sequence all, rfl⟩
    · rw [read]
      refine .inr ⟨fun others lists => ?_, fault, rfl⟩
      cases lists with
      | sequence all => exact wrong all
  | pairs entries =>
    cases entries with
    | nil => exact .inl ⟨[], .noPairs, rfl⟩
    | cons entry rest => exact .inr ⟨nofun, _, rfl⟩
  | atom value =>
    cases value with
    | scalar value =>
      cases value with
      | null => exact .inl ⟨[], .null, rfl⟩
      | _ => exact .inr ⟨nofun, _, rfl⟩
    | _ => exact .inr ⟨nofun, _, rfl⟩
  | set members => exact .inr ⟨nofun, _, rfl⟩
  | mapping entries => exact .inr ⟨nofun, _, rfl⟩

/-- Every record goes over those in front of it, and over the specs that are there before. -/
theorem lookup_laid {records : List Value} (h : ∀ record ∈ records, record.IsRecord)
    (specs : Keyed OperandSpec) (operand : String) :
    ((records.map entryOf).foldl
        (fun specs record => Keyed.insert specs record.1 record.2) specs).lookup operand =
      ((lastRecord? records operand).map fun record => (entryOf record).2).or
        (specs.lookup operand) := by
  induction records generalizing specs with
  | nil => rfl
  | cons record rest ih =>
    obtain ⟨name, named⟩ := (h record List.mem_cons_self).name
    have others : ∀ other ∈ rest, other.IsRecord :=
      fun other ho => h other (List.mem_cons_of_mem _ ho)
    have this : Value.isNamed operand record = decide (name = operand) := by
      rw [Value.isNamed, named]
    have key : (entryOf record).1 = name := by
      rw [entryOf, named]
    rw [List.map_cons, List.foldl_cons, ih others, Keyed.lookup_insert, key]
    unfold lastRecord?
    rw [List.reverse_cons, List.find?_append]
    cases rest.reverse.find? (Value.isNamed operand) with
    | some last => rfl
    | none =>
      by_cases same : operand = name
      · subst same
        simp [this]
      · simp [this, same, Ne.symm same]

theorem lookup_ofRecords {records : List Value} (h : ∀ record ∈ records, record.IsRecord)
    (operand : String) :
    (ofRecords records).specs.lookup operand =
      (lastRecord? records operand).map fun record => (entryOf record).2 :=
  (lookup_laid h [] operand).trans Option.or_none

/-- The rules of a kind are those of the last record of the operand. -/
theorem rules_ofRecords {records : List Value} (h : ∀ record ∈ records, record.IsRecord)
    (operand kind : String) :
    (ofRecords records).kindSpec? operand kind = ruleMap? records operand kind ∧
      (ofRecords records).forKind? (.text operand) kind =
        (ruleMap? records operand kind).map fun rules => rules.tree.entries := by
  unfold kindSpec? spec? forKind? ruleMap?
  dsimp only
  rw [lookup_ofRecords h]
  cases lastRecord? records operand with
  | none => exact ⟨rfl, rfl⟩
  | some record =>
    dsimp only [entryOf, Option.map_some, Option.bind_some]
    rw [Value.get_tree record]
    cases record.get? "spec" with
    | none => exact ⟨rfl, rfl⟩
    | some spec =>
      dsimp only [Option.getD_some, Option.map_some, Option.bind_some]
      rw [Value.get_tree]
      constructor
      · rw [Option.filter_some]
        cases mapping : spec.isMapping with
        | true => rfl
        | false => rw [Value.get?_of_not_mapping mapping]; rfl
      · cases spec.get? kind with
        | none => rfl
        | some rules =>
          dsimp only [Option.map_some, Option.getD_some]
          rw [Value.entries?_tree, Option.filter_some]
          split <;> rfl

end RuleSet

namespace RulesFile

open Yaml

def rules (file : RulesFile) : Except Failure RuleSet :=
  file.read.bind RuleSet.read

def document (file : RulesFile) : Except Failure Document :=
  file.read.bind RuleSet.document

/-- The document in a file lists records of rules. -/
def Lists (file : RulesFile) (records : List Value) : Prop :=
  ∃ document, file.document = .ok document ∧ document.value.Lists records

/-- What in a rules file is not reported as malformed. -/
inductive Blemish : RulesFile → Failure → Prop where
  /-- The bytes are no text. -/
  | undecodable {content : List UInt8} (h : String.fromUTF8? ⟨content.toArray⟩ = none) :
      Blemish (.bytes content) .undecodable
  | document {file : RulesFile} {text : String} {fault : Fault} (read : file.read = .ok text)
      (h : Yaml.Blemish (Token.ofText text) fault) : Blemish file (RuleSet.failureOf fault)

variable {file : RulesFile} {failure : Failure}

theorem rules_eq (file : RulesFile) :
    file.rules = file.document.bind fun document =>
      (RuleSet.ofDocument document.value document.value.tree).mapError .malformedRules := by
  unfold rules document
  cases file.read with
  | error failure => rfl
  | ok text => exact RuleSet.read_eq text

theorem read_error (h : file.read = .error failure) :
    (∃ fault, failure = .malformedRules fault) ∨
      failure.ofReconcile = false ∧ file.Blemish failure := by
  cases file with
  | bytes content =>
    unfold RulesFile.read at h
    dsimp only at h
    split at h
    · cases h
    · rename_i undecodable
      cases h
      exact .inr ⟨rfl, .undecodable undecodable⟩
  | _ =>
    cases h
    exact .inl ⟨_, rfl⟩

theorem document_error (h : file.document = .error failure) :
    (∃ fault, failure = .malformedRules fault) ∨
      failure.ofReconcile = false ∧ file.Blemish failure := by
  unfold document RuleSet.document at h
  cases read : file.read with
  | error refused =>
    rw [read] at h
    cases h
    exact read_error read
  | ok text =>
    rw [read, Except.bind] at h
    cases found : Document.read text with
    | ok document =>
      rw [found] at h
      cases h
    | error fault =>
      rw [found] at h
      cases h
      rcases Document.blamed found with rfl | blemish
      · exact .inl ⟨_, rfl⟩
      · cases fault with
        | malformed => exact .inl ⟨_, rfl⟩
        | _ => exact .inr ⟨rfl, .document read blemish⟩

/-- A file that lists records states them. Any other is malformed, or has a blemish. -/
theorem rules_cases (file : RulesFile) :
    (∃ records, file.Lists records ∧ file.rules = .ok (.ofRecords records)) ∨
      (∀ records, ¬file.Lists records) ∧ ∃ failure, file.rules = .error failure ∧
        ((∃ fault, failure = .malformedRules fault) ∨
          failure.ofReconcile = false ∧ file.Blemish failure) := by
  rw [rules_eq]
  unfold Lists
  cases found : file.document with
  | error failure => exact .inr ⟨nofun, failure, rfl, document_error found⟩
  | ok document =>
    rcases RuleSet.ofDocument_cases document.value with ⟨records, lists, ok⟩ | ⟨none, fault, error⟩
    · rw [Except.bind, ok]
      exact .inl ⟨records, ⟨document, rfl, lists⟩, rfl⟩
    · rw [Except.bind, error]
      refine .inr ⟨fun records ⟨other, same, lists⟩ => ?_, _, rfl, .inl ⟨fault, rfl⟩⟩
      cases same
      exact none records lists

theorem rules_of_lists {rules : RuleSet} {records : List Value} (h : file.rules = .ok rules)
    (lists : file.Lists records) (operand kind : String) :
    rules.kindSpec? operand kind = Value.ruleMap? records operand kind ∧
      rules.forKind? (.text operand) kind =
        (Value.ruleMap? records operand kind).map fun rules => rules.tree.entries := by
  rcases rules_cases file with ⟨others, lists', ok⟩ | ⟨none, _⟩
  · obtain ⟨document, found, listed⟩ := lists
    obtain ⟨document', found', listed'⟩ := lists'
    cases found.symm.trans found'
    cases listed.unique listed'
    cases h.symm.trans ok
    exact RuleSet.rules_ofRecords listed.isRecord operand kind
  · exact absurd lists (none records)

end RulesFile

namespace Launch

variable {surroundings : Surroundings} {path : String}

theorem rulesText_of_path (named : path ≠ "") (possible : path.contains '\x00' = false) :
    rulesText surroundings (some path) = (surroundings.fileAt path).read.bind fun text =>
      (RuleSet.read text).map fun _ => some text := by
  unfold rulesText
  split
  · rename_i none
    cases none
  · rename_i empty
    exact absurd (Option.some.inj empty) named
  · rename_i other same
    cases same
    rw [possible]
    cases (surroundings.fileAt path).read with
    | error failure => rfl
    | ok text =>
      show (RuleSet.read text >>= fun _ => pure (some text)) =
        (RuleSet.read text).map fun _ => some text
      cases RuleSet.read text <;> rfl

/-- How a start ends whose rules file is refused: with a message if the file is malformed, without
any if it is something else. -/
def refusal (verbose : Bool) : Failure → Report Launch
  | .malformedRules fault =>
    { outcome := .ok { exitCode := some 1, started := none, loaded := none, verbose }
      notices := [.badRulesFile fault.message] }
  | failure => .fail failure

/-- A rules file that is refused is met before anything else happens. -/
theorem run_of_rules_error {arguments : List String} {settings : CommandLine.Settings}
    {failure : Failure} (read : CommandLine.read arguments = .ok settings)
    (at_path : settings.rulesFile = some path) (named : path ≠ "")
    (possible : path.contains '\x00' = false)
    (h : (surroundings.fileAt path).rules = .error failure) :
    run surroundings arguments = refusal settings.verbose failure := by
  have refused : rulesText surroundings settings.rulesFile = .error failure := by
    rw [at_path, rulesText_of_path named possible]
    unfold RulesFile.rules at h
    cases found : (surroundings.fileAt path).read with
    | error failure =>
      rw [found] at h
      cases h
      rfl
    | ok text =>
      rw [found, Except.bind] at h
      rw [Except.bind, h]
      rfl
  unfold run withSettings
  rw [read]
  dsimp only
  rw [refused]
  cases failure <;> rfl

end Launch

/-- A rules file states the last record of every operand, if its document lists records. If not, it
is reported as malformed, and ends the program at its start with a message, unless it has a
blemish. -/
theorem rules_file_stated_or_malformed (file : RulesFile) :
    ((∃ rules, file.rules = .ok rules) ↔ ∃ records, file.Lists records) ∧
      (∀ rules records, file.rules = .ok rules → file.Lists records → ∀ operand kind,
        rules.kindSpec? operand kind = Yaml.Value.ruleMap? records operand kind ∧
          rules.forKind? (.text operand) kind =
            (Yaml.Value.ruleMap? records operand kind).map fun rules => rules.tree.entries) ∧
      (∀ failure, file.rules = .error failure →
        (∃ fault, failure = .malformedRules fault) ∨
          failure.ofReconcile = false ∧ file.Blemish failure) ∧
      ∀ (surroundings : Surroundings) arguments settings path failure,
        CommandLine.read arguments = .ok settings → settings.rulesFile = some path → path ≠ "" →
        path.contains '\x00' = false → surroundings.fileAt path = file →
        file.rules = .error failure →
        Launch.run surroundings arguments = Launch.refusal settings.verbose failure := by
  refine ⟨?_, fun rules records => file.rules_of_lists, fun failure error => ?_, ?_⟩
  · rcases file.rules_cases with ⟨records, lists, ok⟩ | ⟨none, failure, error, _⟩
    · exact iff_of_true ⟨_, ok⟩ ⟨records, lists⟩
    · refine iff_of_false (fun ⟨rules, ok⟩ => ?_) fun ⟨records, lists⟩ => none records lists
      cases ok.symm.trans error
  · rcases file.rules_cases with ⟨records, lists, ok⟩ | ⟨none, other, error', why⟩
    · cases ok.symm.trans error
    · cases error.symm.trans error'
      exact why
  · rintro surroundings arguments settings path failure read at_path named possible rfl error
    exact Launch.run_of_rules_error read at_path named possible error

namespace Sample

def soundFile : RulesFile :=
  .bytes "- name: db\n  spec:\n    cluster:\n      replicas: true\n".toUTF8.toList

/-- A rules file with one byte, which is no text. -/
def tornFile : RulesFile :=
  .bytes [0xff]

/-- A rules file that has a day of the thirteenth month for a name. -/
def undatedFile : RulesFile :=
  .bytes "- name: 2024-13-45\n".toUTF8.toList

def surroundedBy (file : RulesFile) : Surroundings :=
  { fileAt := fun _ => file, configFault := none, runEnd := .returned }

end Sample

theorem rules_file_stated_or_malformed_met :
    (∃ (rules : RuleSet) (records : List Yaml.Value), Sample.soundFile.rules = .ok rules ∧
        Sample.soundFile.Lists records ∧
        rules.kindSpec? "db" "cluster" = Yaml.Value.ruleMap? records "db" "cluster") ∧
      Sample.tornFile.Blemish .undecodable ∧
      Launch.run (Sample.surroundedBy .missing) ["--rules-file", "rules.yaml"] =
        Launch.refusal false (.malformedRules .unreadable) := by
  have sound := rules_file_stated_or_malformed Sample.soundFile
  have torn := rules_file_stated_or_malformed Sample.tornFile
  have missing := rules_file_stated_or_malformed .missing
  refine ⟨?_, ?_, ?_⟩
  · have stated : ∃ rules, Sample.soundFile.rules = .ok rules := by
      cases read : Sample.soundFile.rules with
      | ok rules => exact ⟨rules, rfl⟩
      | error failure =>
        have ok : Sample.soundFile.rules.isOk = true := by decide +kernel
        rw [read] at ok
        cases ok
    obtain ⟨rules, ok⟩ := stated
    obtain ⟨records, lists⟩ := sound.1.mp ⟨rules, ok⟩
    exact ⟨rules, records, ok, lists, (sound.2.1 rules records ok lists "db" "cluster").1⟩
  · have refused : Sample.tornFile.rules = .error .undecodable := by rfl
    rcases torn.2.2.1 .undecodable refused with ⟨fault, other⟩ | ⟨_, blemish⟩
    · cases other
    · exact blemish
  · exact missing.2.2.2 (Sample.surroundedBy .missing) ["--rules-file", "rules.yaml"]
      { rulesFile := some "rules.yaml" } "rules.yaml" _ (by decide +kernel) rfl (by decide)
      (by simp) rfl rfl

/-- Neither all bytes nor all texts that state no rules are reported as malformed, and the program
does not end with a message then. -/
theorem rules_file_escapes :
    Sample.tornFile.rules = .error .undecodable ∧ Sample.undatedFile.rules = .error .noSuchValue ∧
      Failure.ofReconcile .undecodable = false ∧ Failure.ofReconcile .noSuchValue = false ∧
      Launch.run (Sample.surroundedBy Sample.undatedFile) ["--rules-file", "rules.yaml"] =
        .fail .noSuchValue := by
  have undated : Sample.undatedFile.rules = .error .noSuchValue := by
    have document : Sample.undatedFile.document = .error .noSuchValue := by decide +kernel
    rw [RulesFile.rules_eq, document]
    rfl
  have read : CommandLine.read ["--rules-file", "rules.yaml"] =
      .ok { rulesFile := some "rules.yaml" } := by decide +kernel
  have there : ((Sample.surroundedBy Sample.undatedFile).fileAt "rules.yaml").rules =
      .error .noSuchValue := undated
  exact ⟨rfl, undated, rfl, rfl, Launch.run_of_rules_error read rfl (by decide) (by simp) there⟩

end TenantSizing
