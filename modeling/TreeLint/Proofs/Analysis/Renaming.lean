import TreeLint.Proofs.Analysis.Contents
import TreeLint.Proofs.Naming.Stability
import TreeLint.Proofs.Rule.Decision
import TreeLint.Proofs.Tree.Retext
import TreeLint.Proofs.Tree.TokenEdits

/-!
# Applying the corrections of names

A finding about a name that is written down carries the corrected name and offers to put it in place
of the token. When the text of every such token is replaced, the new tree spells the text that the
offered edits make of the old one, and no name in it is to be corrected any more
(`TreeLint.Engine.corrections_settle`): the tokens that are looked at are those that were looked at
before, and a corrected name complies with the convention.
-/

namespace TreeLint

open Text

/-- The edit that a finding about a name offers: its only suggestion, if it carries a corrected
name. -/
def Finding.correction? (finding : Finding) : Option Edit :=
  match finding.property? Casing.namePropertyKey, finding.suggestions with
  | some _, [suggestion] => suggestion.location.span.map (Edit.mk · suggestion.replacement)
  | _, _ => none

/-- The edits that the findings of an outcome about names offer, in their order. -/
def Outcome.corrections (outcome : Outcome) : List Edit :=
  outcome.findings.filterMap Finding.correction?

/-- A tree in which the texts of the tokens at the spans of edits are replaced. -/
def Tree.withEdits (tree : Tree) (edits : List Edit) : Tree :=
  tree.retext (fun span text => (Edit.at? edits span).getD text) 0

namespace Casing

/-! ### Names that are looked at -/

theorem labelName?_revised {revise : Span → String → String} {old new : Argument}
    (revised : old.node.Revised revise new.node) :
    Option.Rel (Token.Revised revise) (labelName? old) (labelName? new) :=
  rel_bind (fun _ _ revised => NameColon.name?_revised revised) (revised.childAs? .nameColon)

theorem writtenNames_revised {revise : Span → String → String} {old new : Node}
    (revised : old.Revised revise new) :
    List.Forall₂ (Token.Revised revise) (writtenNames old) (writtenNames new) := by
  unfold writtenNames
  rw [revised.kind_eq]
  split
  · exact List.rel_filterMap (fun _ _ revised => TupleElement.name?_revised revised)
      (revised.childrenAs .tupleElement)
  · split
    · exact List.rel_filterMap (fun _ _ revised => labelName?_revised revised)
        (revised.childrenAs .argument)
    · exact .nil

/-! ### Findings that carry a corrected name -/

variable {context : Context} {found : Finding}

/-- A finding about a token carries the corrected name, and offers to put it in place of the
token. -/
theorem correction?_of_written {token : Token}
    (reported : writtenFinding? context token = some found) :
    ∃ fixed, context.settings.casing.fix? token.text = some fixed ∧
      found.property? namePropertyKey = some fixed ∧
      found.correction? = some ⟨token.span, fixed⟩ ∧ found.location.offset = token.span.start := by
  obtain ⟨fixed, corrected, rfl⟩ := Option.map_eq_some_iff.mp reported
  refine ⟨fixed, corrected, ?_, ?_, rfl⟩
  · rfl
  · rfl

/-- Only the findings about names that are written down carry a corrected name. -/
theorem exists_token_of_property {node : Node} {name : String}
    (member : found ∈ Builtin.findings context node)
    (carried : found.property? namePropertyKey = some name) :
    context.severityFor? descriptor ≠ none ∧ checksWritten context = true ∧
      ∃ token ∈ writtenNames node, writtenFinding? context token = some found := by
  rcases Builtin.mem_findings_iff.mp member with ⟨on, casing⟩ | ⟨-, removal⟩ | ⟨-, marking⟩
  · rcases mem_findings_iff.mp casing with ⟨checked, written⟩ | ⟨-, expression, -, taken⟩
    · exact ⟨on, checked, written⟩
    · obtain ⟨_, -, taken⟩ := Option.bind_eq_some_iff.mp taken
      obtain ⟨_, -, taken⟩ := Option.bind_eq_some_iff.mp taken
      cases taken
      cases carried
  · obtain ⟨list, -, rfl⟩ := AnonymousMethodList.exists_list_of_finding? removal
    cases carried
  · obtain ⟨attr, list, -, -, -, rfl⟩ := AttributeList.mem_findings_iff.mp marking
    cases carried

end Casing

namespace Engine

variable {settings : Settings} {unit : AnalysisUnit} {signal : Signal}

/-- The edits that the findings about names in a unit offer. -/
def corrections (settings : Settings) (unit : AnalysisUnit) (signal : Signal) : List Edit :=
  ((builtin settings).analyze unit signal).1.corrections

/-- The unit after the offered edits, with a host that knows the new tree. -/
def withCorrections (settings : Settings) (unit : AnalysisUnit) (signal : Signal)
    (model : SemanticModel) : AnalysisUnit :=
  { unit with tree := unit.tree.withEdits (corrections settings unit signal), model }

/-- A name of a tree that is looked at and does not comply with the convention, with the corrected
name. -/
structure Corrects (settings : Settings) (unit : AnalysisUnit) (token : Token) (fixed : String) :
    Prop where
  on : settings.severityFor? Casing.descriptor ≠ none
  checked : unit.version.supportsNamedTuples = true
  written : ∃ node ∈ unit.tree.root.descendants, token ∈ Casing.writtenNames node
  corrected : settings.casing.fix? token.text = some fixed

theorem Corrects.mem_tokens {token : Token} {fixed : String}
    (corrects : Corrects settings unit token fixed) : token ∈ unit.tree.root.tokens := by
  obtain ⟨node, visited, listed⟩ := corrects.written
  exact (Node.placed_of_mem_descendants visited).mem_tokens
    (Casing.mem_tokens_of_writtenNames listed)

/-- A finding that carries a corrected name is about a token that this is the correction of, and
offers to put it in place of the token. -/
theorem exists_corrects {found : Finding} {name : String}
    (member : found ∈ ((builtin settings).analyze unit signal).1.findings)
    (carried : found.property? Casing.namePropertyKey = some name) :
    ∃ token, Corrects settings unit token name ∧
      found.correction? = some ⟨token.span, name⟩ ∧
      found.location.offset = token.span.start := by
  obtain ⟨node, visited, reported⟩ := exists_node_of_mem_findings member
  obtain ⟨on, checked, token, listed, written⟩ :=
    Casing.exists_token_of_property reported carried
  obtain ⟨fixed, corrected, named, offered, offset⟩ := Casing.correction?_of_written written
  rw [carried] at named
  cases named
  exact ⟨token, ⟨on, checked, ⟨node, visited, listed⟩, corrected⟩, offered, offset⟩

theorem property?_of_correction? {found : Finding} {edit : Edit}
    (offered : found.correction? = some edit) :
    ∃ name, found.property? Casing.namePropertyKey = some name := by
  unfold Finding.correction? at offered
  split at offered
  · next named _ => exact ⟨_, named⟩
  · cases offered

/-- The offered edits put corrected names in place of tokens. -/
theorem corrects_of_mem_corrections {edit : Edit}
    (member : edit ∈ corrections settings unit signal) :
    ∃ token, Corrects settings unit token edit.replacement ∧ token.span = edit.span := by
  obtain ⟨found, listed, offered⟩ := List.mem_filterMap.mp member
  obtain ⟨name, carried⟩ := property?_of_correction? offered
  obtain ⟨token, corrects, same, -⟩ := exists_corrects listed carried
  rw [offered] at same
  cases same
  exact ⟨token, corrects, rfl⟩

/-- A pass that was not stopped offers an edit for every name that is to be corrected. -/
theorem Corrects.mem_corrections {token : Token} {fixed : String}
    (finished : ((builtin settings).analyze unit signal).1.cancelled = false)
    (corrects : Corrects settings unit token fixed) :
    Edit.mk token.span fixed ∈ corrections settings unit signal := by
  obtain ⟨on, checked, ⟨node, visited, listed⟩, corrected⟩ := corrects
  obtain ⟨found, written⟩ : ∃ found,
      Casing.writtenFinding? ⟨unit, settings⟩ token = some found := by
    rw [Casing.writtenFinding?, corrected]
    exact ⟨_, rfl⟩
  obtain ⟨other, correctedToo, -, offered, -⟩ := Casing.correction?_of_written written
  rw [corrected] at correctedToo
  cases correctedToo
  have casing : found ∈ Casing.findings ⟨unit, settings⟩ node :=
    Casing.mem_findings_iff.mpr (.inl ⟨checked, token, listed, written⟩)
  have reported : found ∈ Builtin.findings ⟨unit, settings⟩ node :=
    Builtin.mem_findings_iff.mpr (.inl ⟨on, casing⟩)
  exact List.mem_filterMap.mpr
    ⟨found, (mem_findings_iff finished).mpr ⟨node, visited, reported⟩, offered⟩

theorem corrections_edits :
    Token.Edits unit.tree.root.tokens (corrections settings unit signal) where
  exists_token := by
    intro edit member
    obtain ⟨token, corrects, span⟩ := corrects_of_mem_corrections member
    exact ⟨token, corrects.mem_tokens, Convention.ne_empty_of_fix? corrects.corrected, span⟩
  same := by
    intro first member second memberToo same
    obtain ⟨token, corrects, span⟩ := corrects_of_mem_corrections member
    obtain ⟨other, correctsToo, spanToo⟩ := corrects_of_mem_corrections memberToo
    have starts : token.span.start = other.span.start := by rw [span, spanToo, same]
    have tokens := unit.tree.root.tokens_consecutive.eq_of_start corrects.mem_tokens
      correctsToo.mem_tokens (Convention.ne_empty_of_fix? corrects.corrected)
      (Convention.ne_empty_of_fix? correctsToo.corrected) starts
    have replacements := correctsToo.corrected
    rw [← tokens, corrects.corrected] at replacements
    cases first
    cases second
    cases same
    cases replacements
    rfl

theorem corrections_pairwise : (corrections settings unit signal).Pairwise
    fun first second => first.span.start ≤ second.span.start := by
  have ordered := (Finding.sorted_lists
    ((builtin settings).pass unit signal).2.reporter.findings).ordered
  rw [← analyze_findings] at ordered
  refine List.pairwise_filterMap.mpr (ordered.imp_of_mem ?_)
  intro first second member memberToo before edit offered editToo offeredToo
  obtain ⟨name, carried⟩ := property?_of_correction? offered
  obtain ⟨nameToo, carriedToo⟩ := property?_of_correction? offeredToo
  obtain ⟨token, -, same, start⟩ := exists_corrects member carried
  obtain ⟨other, -, sameToo, startToo⟩ := exists_corrects memberToo carriedToo
  rw [offered] at same
  rw [offeredToo] at sameToo
  cases same
  cases sameToo
  dsimp only
  omega

/-- A name that is looked at after the edits is a corrected one or one that complied before. -/
theorem not_corrects_withEdits {model : SemanticModel} {token : Token} {fixed : String}
    (finished : ((builtin settings).analyze unit signal).1.cancelled = false) :
    ¬ Corrects settings (withCorrections settings unit signal model) token fixed := by
  rintro ⟨on, checked, ⟨new, visited, listed⟩, corrected⟩
  have root : unit.tree.root.Revised
      (fun span text => (Edit.at? (corrections settings unit signal) span).getD text)
      (unit.tree.withEdits (corrections settings unit signal)).root := rfl
  obtain ⟨old, oldVisited, revised⟩ := exists_of_mem_right root.descendants visited
  obtain ⟨oldToken, oldListed, token⟩ :=
    exists_of_mem_right (Casing.writtenNames_revised revised) listed
  rw [token.text] at corrected
  cases replaced : Edit.at? (corrections settings unit signal) oldToken.span with
  | none =>
      -- The name would have been corrected before.
      rw [replaced, Option.getD_none] at corrected
      have corrects : Corrects settings unit oldToken fixed :=
        ⟨on, checked, ⟨old, oldVisited, oldListed⟩, corrected⟩
      have offered := corrections_edits.at?_eq_some (corrects.mem_corrections finished)
      rw [replaced] at offered
      cases offered
  | some replacement =>
      rw [replaced, Option.getD_some] at corrected
      obtain ⟨source, corrects, -⟩ :=
        corrects_of_mem_corrections (Token.Edits.mem_of_at?_eq_some replaced)
      rw [Convention.fix?_of_fix? corrects.corrected] at corrected
      cases corrected

/-- **Applying the corrections.** Let a pass that was not stopped go over a unit. Every finding that
carries a corrected name offers to put it in place of a span, and each offered edit replaces a token
that is the only one of its span by its correction. Edits of one span agree, and other edits do not
overlap. When the texts of these tokens are replaced in the tree, the new tree spells what the
edits, each taken once, make of the text; and whatever the host and the signal, no finding about the
new tree carries a corrected name. -/
theorem corrections_settle (settings : Settings) (unit : AnalysisUnit) (signal : Signal)
    (finished : ((builtin settings).analyze unit signal).1.cancelled = false) :
    (∀ found ∈ ((builtin settings).analyze unit signal).1.findings, ∀ name,
      found.property? Casing.namePropertyKey = some name →
        ∃ span, found.correction? = some ⟨span, name⟩) ∧
    (∀ edit ∈ corrections settings unit signal, ∃ token,
      unit.tree.root.tokens.filter (·.span = edit.span) = [token] ∧
        settings.casing.fix? token.text = some edit.replacement) ∧
    (∀ first ∈ corrections settings unit signal, ∀ second ∈ corrections settings unit signal,
      (first.span = second.span → first.replacement = second.replacement) ∧
      (first.span ≠ second.span →
        first.span.stop ≤ second.span.start ∨ second.span.stop ≤ first.span.start)) ∧
    edited? 0 unit.tree.chars (corrections settings unit signal).dedup =
      some (unit.tree.withEdits (corrections settings unit signal)).chars ∧
    ∀ model later, ∀ found ∈
        ((builtin settings).analyze (withCorrections settings unit signal model) later).1.findings,
      found.property? Casing.namePropertyKey = none := by
  have consecutive := unit.tree.root.tokens_consecutive
  have edits : Token.Edits unit.tree.root.tokens (corrections settings unit signal) :=
    corrections_edits
  refine ⟨?_, ?_, ?_, ?_, ?_⟩
  · intro found member name carried
    obtain ⟨token, -, offered, -⟩ := exists_corrects member carried
    exact ⟨token.span, offered⟩
  · intro edit member
    obtain ⟨token, corrects, span⟩ := corrects_of_mem_corrections member
    rw [← span]
    exact ⟨token, consecutive.filter_span corrects.mem_tokens
      (Convention.ne_empty_of_fix? corrects.corrected), corrects.corrected⟩
  · intro first member second memberToo
    refine ⟨fun same => ?_, fun different => ?_⟩
    · rw [edits.same first member second memberToo same]
    · obtain ⟨token, listed, -, span⟩ := edits.exists_token first member
      obtain ⟨other, listedToo, -, spanToo⟩ := edits.exists_token second memberToo
      rw [← span, ← spanToo] at different ⊢
      exact consecutive.apart listed listedToo fun same => different (congrArg Token.span same)
  · have made := Token.edited?_eq consecutive edits corrections_pairwise
    rw [Node.spelled_tokens] at made
    rw [Tree.withEdits, Tree.chars_retext]
    exact made
  · intro model later found member
    cases carried : found.property? Casing.namePropertyKey with
    | none => rfl
    | some name =>
        obtain ⟨token, corrects, -⟩ := exists_corrects member carried
        exact absurd corrects (not_corrects_withEdits finished)

/-- A tuple literal with two labels. In the first of them there is a tuple type, so that its name is
looked at twice; the lowercase form of the first letter has two characters. -/
def relabeled : AnalysisUnit :=
  .withoutSemantics "Tuple.cs" ⟨.tupleExpression, [.token .leftParen "(",
    .node .argument [
      .node .nameColon [
        .node .tupleType [.node .tupleElement [.token .varKeyword "var",
          .token .whitespace " ", .token .identifier "İd"]],
        .token .colon ":"],
      .node .literalExpression [.token .intLiteral "1"]],
    .token .comma ",",
    .node .argument [
      .node .nameColon [.node .identifierName [.token .identifier "Total"], .token .colon ":"],
      .node .literalExpression [.token .intLiteral "2"]],
    .token .rightParen ")"]⟩

/-- The twice offered edit is made once, and moves the other one. -/
theorem corrections_settle_relabeled :
    corrections .default relabeled .quiet =
      [⟨⟨5, 8⟩, "i̇d"⟩, ⟨⟨5, 8⟩, "i̇d"⟩, ⟨⟨11, 16⟩, "total"⟩] ∧
    ∀ found ∈ ((builtin .default).analyze
        (withCorrections .default relabeled .quiet relabeled.model) .quiet).1.findings,
      found.property? Casing.namePropertyKey = none := by
  obtain ⟨-, -, -, -, settled⟩ :=
    corrections_settle .default relabeled .quiet (by decide +kernel)
  exact ⟨by decide +kernel, settled relabeled.model .quiet⟩

end Engine

end TreeLint
