import TreeLint.Proofs.Json.Fields
import TreeLint.Settings.Reader
import TreeLint.Settings.Resolved

/-!
# Configurations and the documents that describe them

What a document says about a configuration is stated on its value: options may be missing or null,
members in any order, unknown members among them, and the severity given last to a rule counts
(`TreeLint.Configuration.described?`). The text of a document is read as the configuration that its
value describes (`TreeLint.Configuration.toOption_read`), and what is written for a configuration
describes it (`TreeLint.Configuration.written`). So all documents of one configuration are read like
the one that is written for it, and lead to the same settings
(`TreeLint.Configuration.settings_of_documents`).
-/

namespace TreeLint

open Json

variable {spelled : Number → Reading Number}

theorem Convention.written : Written Convention.toJson (choice? Convention.variants) :=
  .choice fun convention => by cases convention <;> rfl

theorem RuleSeverity.written : Written RuleSeverity.toJson (choice? RuleSeverity.variants) :=
  .choice fun severity => by cases severity <;> rfl

namespace NamingConfiguration

/-- The naming options that a value describes. -/
def described? : Json → Option NamingConfiguration :=
  record? casingKey inferredKey (choice? Convention.variants) truth? NamingConfiguration.mk

theorem casingKey_ne_inferredKey : casingKey ≠ inferredKey := by decide

/-- The options that have been read, as the values of two fields. -/
def Partial.ofFields (slots : Option (Option Convention) × Option (Option Bool)) : Partial :=
  ⟨slots.1, slots.2⟩

/-- The naming options of which some have been read. -/
def Partial.whole (options : Partial) : NamingConfiguration :=
  ⟨options.casing.join, options.inferred.join⟩

theorem readsRecord : ReadsRecord casingKey inferredKey recordName
    (Reader.choice Convention.variants) Reader.bool NamingConfiguration.mk readMember
    Partial.ofFields Partial.whole read where
  members := fun _ _ => rfl
  finished := fun _ => rfl
  objects := fun _ => rfl
  lists := fun _ => rfl
  others := fun lexeme _ _ _ => by cases lexeme <;> first | rfl | contradiction

/-- Naming options are read as the value describes them. -/
theorem reads (skippable : Skippable spelled) : Reads spelled read described? :=
  .record skippable casingKey_ne_inferredKey (.choice Convention.variants) .bool readsRecord

theorem written : Written toJson described? :=
  .record casingKey_ne_inferredKey Convention.written .truth fun _ => rfl

end NamingConfiguration

namespace Configuration

/-- The severities that a value describes. -/
def severities? : Json → Option (Dict RuleSeverity) :=
  dict? (choice? RuleSeverity.variants)

/-- The configuration that a value describes. -/
def described? : Json → Option Configuration :=
  record? namingKey rulesKey NamingConfiguration.described? severities? Configuration.mk

theorem namingKey_ne_rulesKey : namingKey ≠ rulesKey := by decide

/-- The severity of one rule is added to those that have been read. -/
theorem readRule_lexemes (rules : Dict RuleSeverity) (ruleId : String) (value : Json)
    (rest : List Lexeme) :
    (readRule rules ruleId (.colon :: (value.lexemes spelled ++ rest))).toOption =
      ((choice? RuleSeverity.variants value).map (rules.insert ruleId)).map (·, rest) := by
  change (Reader.choice RuleSeverity.variants _ >>= fun result =>
    Except.ok (rules.insert ruleId result.1, result.2)).toOption = _
  rw [toOption_bind_ok, Reads.choice, Option.map_map, Option.map_map]
  rfl

theorem readsRules : Reads spelled readRules severities? := by
  intro value rest
  cases value with
  | object members =>
      have taken : (Reader.allMembers readRule (id Dict.empty)
          (memberLexemes spelled true members ++ .closeObject :: rest)).toOption =
          (members.foldlM (fun rules member => (choice? RuleSeverity.variants member.2).map
            (rules.insert member.1)) Dict.empty).map fun rules => (id rules, rest) :=
        allMembers_lexemes readRule_lexemes members Dict.empty rest
      rw [foldlM_insert] at taken
      rw [lexemes, List.cons_append, List.cons_append, List.append_assoc]
      exact taken
  | _ => rfl

/-- The options that have been read, as the values of two fields. -/
def Partial.ofFields
    (slots : Option (Option NamingConfiguration) × Option (Option (Dict RuleSeverity))) : Partial :=
  ⟨slots.1, slots.2⟩

/-- The configuration of which some options have been read. -/
def Partial.whole (options : Partial) : Configuration :=
  ⟨options.naming.join, options.rules.join⟩

theorem readsRecord : ReadsRecord namingKey rulesKey recordName NamingConfiguration.read readRules
    Configuration.mk readMember Partial.ofFields Partial.whole readLexemes where
  members := fun _ _ => rfl
  finished := fun _ => rfl
  objects := fun _ => rfl
  lists := fun _ => rfl
  others := fun lexeme _ _ _ => by cases lexeme <;> first | rfl | contradiction

/-- A configuration is read as the value describes it. -/
theorem reads (skippable : Skippable spelled) : Reads spelled readLexemes described? :=
  .record skippable namingKey_ne_rulesKey (NamingConfiguration.reads skippable) readsRules
    readsRecord

theorem written : Written toJson described? :=
  .record namingKey_ne_rulesKey NamingConfiguration.written (.dict RuleSeverity.written)
    fun _ => rfl

/-- The text of a document is read as the configuration that its value describes. -/
theorem toOption_read {text : String} {value : Json} (spells : Spells text value) :
    (read text).toOption = described? value := by
  obtain ⟨spelled, skippable, cut⟩ := spells
  have taken := reads skippable value []
  rw [List.append_nil] at taken
  rw [read, Reader.text, toOption_bind, cut, taken]
  cases described? value <;> rfl

theorem read_eq_ok_iff {text : String} {value : Json} (spells : Spells text value)
    (configuration : Configuration) :
    read text = .ok configuration ↔ described? value = some configuration := by
  rw [← toOption_read spells]
  exact ⟨fun accepted => by rw [accepted]; rfl, eq_ok_of_toOption⟩

/-- What is written for a configuration is read as the configuration. -/
theorem read_render (configuration : Configuration) :
    read configuration.toJson.render = .ok configuration :=
  (read_eq_ok_iff (spells_render (written.numberless configuration)) configuration).mpr
    (written.means configuration)

/-! ### Documents that say the same -/

/-- Two objects differ in the order of their members, by a member that is no option, or by an option
that is null in one and missing in the other. -/
inductive Alike : List (String × Json) → List (String × Json) → Prop where
  | order {members others : List (String × Json)} (same : members.Perm others) :
      Alike members others
  | unknown {name : String} (value : Json) (members : List (String × Json))
      (notNaming : name ≠ namingKey) (notRules : name ≠ rulesKey) :
      Alike ((name, value) :: members) members
  | null {name : String} {members : List (String × Json)}
      (missing : ∀ member ∈ members, member.1 ≠ name) : Alike ((name, .null) :: members) members

theorem described?_of_alike {members others : List (String × Json)} (alike : Alike members others) :
    described? (.object members) = described? (.object others) := by
  cases alike with
  | order same => exact record?_perm _ _ _ _ _ same
  | unknown value members notNaming notRules =>
      exact record?_unknown notNaming notRules _ _ _ value _
  | null missing => exact record?_null namingKey_ne_rulesKey _ _ _ missing

/-! ### Severities of rules -/

/-- The severity that a document gives to a rule, where the one given last counts. -/
def given? (document : Json) (ruleId : String) : Option RuleSeverity :=
  (fields? namingKey rulesKey document).bind fun fields =>
    match fields.2 with
    | some (.object members) =>
        (members.reverse.lookup ruleId).bind (choice? RuleSeverity.variants)
    | _ => none

/-- The severity that a configuration gives to a rule. -/
def configured? (configuration : Configuration) (ruleId : String) : Option RuleSeverity :=
  configuration.rules.bind fun rules => rules.find? ruleId

theorem configured?_eq_given? {document : Json} {configuration : Configuration}
    (described : described? document = some configuration) (ruleId : String) :
    configuration.configured? ruleId = given? document ruleId := by
  obtain ⟨⟨first, second⟩, shape, options⟩ := Option.bind_eq_some_iff.mp described
  obtain ⟨naming, _, options⟩ := Option.bind_eq_some_iff.mp options
  obtain ⟨rules, severities, whole⟩ := Option.map_eq_some_iff.mp options
  subst whole
  rw [given?, shape, Option.bind_some, configured?]
  cases second with
  | none =>
      cases severities
      rfl
  | some value =>
      cases value with
      | null =>
          cases severities
          rfl
      | object members =>
          obtain ⟨dict, given, rfl⟩ : ∃ dict, severities? (.object members) = some dict ∧
              some dict = rules := Option.map_eq_some_iff.mp severities
          exact find?_dict given ruleId
      | _ => cases severities

/-- A configured severity decides about a rule, and the rule's own severity only if it is enabled by
default and nothing is configured. -/
theorem severityFor?_ofConfiguration (configuration : Configuration) (descriptor : Descriptor) :
    (Settings.ofConfiguration configuration).severityFor? descriptor =
      match configuration.configured? descriptor.id with
      | some configured => configured.severity?
      | none => if descriptor.enabledByDefault then some descriptor.defaultSeverity else none := by
  obtain ⟨naming, rules⟩ := configuration
  cases rules <;> rfl

/-- **All documents of a configuration lead to the same settings.** Every configuration is read from
what is written for it. Any document that is accepted is read like the one that is written for its
configuration, and leads to the same settings. In them the severity of a rule is the one given last
in the document, where it is given at all, and otherwise its own if it is enabled by default. The
order of members, unknown members, and options that are null do not matter. -/
theorem settings_of_documents :
    (∀ configuration : Configuration, read configuration.toJson.render = .ok configuration) ∧
    ∀ (text : String) (configuration : Configuration), read text = .ok configuration →
      (∃ again, read configuration.toJson.render = .ok again ∧ again = configuration ∧
        Settings.ofConfiguration again = Settings.ofConfiguration configuration) ∧
      (∀ descriptor, (Settings.ofConfiguration configuration).severityFor? descriptor =
        match configuration.configured? descriptor.id with
        | some configured => configured.severity?
        | none => if descriptor.enabledByDefault then some descriptor.defaultSeverity else none) ∧
      ∀ document, Spells text document →
        described? document = some configuration ∧
        (∀ ruleId, configuration.configured? ruleId = given? document ruleId) ∧
        ∀ members others, document = .object members → Alike members others →
          ∀ other, Spells other (.object others) → read other = .ok configuration := by
  refine ⟨read_render, fun text configuration accepted => ⟨?_, ?_, ?_⟩⟩
  · exact ⟨configuration, read_render configuration, rfl, rfl⟩
  · exact severityFor?_ofConfiguration configuration
  · intro document spells
    have described := (read_eq_ok_iff spells configuration).mp accepted
    refine ⟨described, configured?_eq_given? described, ?_⟩
    rintro members others rfl alike other spelledToo
    rw [described?_of_alike alike] at described
    exact (read_eq_ok_iff spelledToo configuration).mpr described

/-- Options in another order, with second names, a null and a rule that occurs twice. -/
def sampleOptions : List (String × Json) := [
  (rulesKey, .object [
    ("style/a", .string "error"), ("style/b", .object [("off", .null)]),
    ("style/a", .string "warning")]),
  (namingKey, .object [
    (NamingConfiguration.inferredKey, .null),
    (NamingConfiguration.casingKey, .string "PascalCase")])]

/-- A document with these options and an unknown member. -/
def sample : Json :=
  .object (("comment", .array [.null, .bool true]) :: sampleOptions)

/-- The configuration that the document describes. -/
def sampled : Configuration where
  naming := some ⟨some .pascalCase, none⟩
  rules := some ((Dict.empty.insert "style/a" .warn).insert "style/b" .off)

theorem settings_of_sample :
    read sample.render = .ok sampled ∧ Spells sample.render sample ∧
      (∃ again, read sampled.toJson.render = .ok again ∧ again = sampled ∧
        Settings.ofConfiguration again = Settings.ofConfiguration sampled) ∧
      sampled.configured? "style/a" = given? sample "style/a" ∧
      given? sample "style/a" = some .warn ∧
      read (Json.object sampleOptions).render = .ok sampled := by
  have spells : Spells sample.render sample := spells_render rfl
  have accepted : read sample.render = .ok sampled := (read_eq_ok_iff spells sampled).mpr (by rfl)
  obtain ⟨again, -, documents⟩ := settings_of_documents.2 sample.render sampled accepted
  obtain ⟨-, given, alike⟩ := documents sample spells
  have known : Alike (("comment", .array [.null, .bool true]) :: sampleOptions) sampleOptions :=
    .unknown _ _ (by decide) (by decide)
  exact ⟨accepted, spells, again, given "style/a", by rfl,
    alike _ _ rfl known _ (spells_render rfl)⟩

end Configuration

end TreeLint
