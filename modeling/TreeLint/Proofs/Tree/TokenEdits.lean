import Mathlib.Data.List.Dedup
import Mathlib.Data.List.Pairwise
import TreeLint.Proofs.Text.Replacement
import TreeLint.Proofs.Tree.Walk

/-!
# Edits of tokens

Tokens with text that stand one behind the other do not overlap, and each is the only one of its
span (`TreeLint.Token.Consecutive.filter_span`). Edits that are in order and replace whole tokens,
one text for each, can therefore be made one after the other, and give the text in which every
token of an edited span is replaced (`TreeLint.Token.edited?_eq`).
-/

namespace TreeLint.Token

theorem Consecutive.pairwise {start : Nat} {tokens : List Token}
    (consecutive : Consecutive start tokens) :
    tokens.Pairwise fun first second => first.span.stop ≤ second.start := by
  induction tokens generalizing start with
  | nil => exact .nil
  | cons token tokens ih =>
      obtain ⟨-, rest⟩ := consecutive
      exact List.pairwise_cons.mpr ⟨fun later member => (rest.between member).1, ih rest⟩

theorem Consecutive.apart {start : Nat} {tokens : List Token} {first second : Token}
    (consecutive : Consecutive start tokens) (former : first ∈ tokens)
    (latter : second ∈ tokens) (different : first ≠ second) :
    first.span.stop ≤ second.span.start ∨ second.span.stop ≤ first.span.start := by
  have ordered : first = second ∨ first.span.stop ≤ second.start ∨
      second.span.stop ≤ first.start :=
    List.Pairwise.forall_of_forall_of_flip
      (R := fun first second : Token => first = second ∨ first.span.stop ≤ second.start ∨
        second.span.stop ≤ first.start)
      (fun token _ => .inl rfl) (consecutive.pairwise.imp fun before => .inr (.inl before))
      (consecutive.pairwise.imp fun before => .inr (.inr before)) former latter
  exact ordered.resolve_left different

/-- Only one of some consecutive tokens with text starts at an offset. -/
theorem Consecutive.eq_of_start {start : Nat} {tokens : List Token} {first second : Token}
    (consecutive : Consecutive start tokens) (former : first ∈ tokens) (latter : second ∈ tokens)
    (text : first.text ≠ "") (textToo : second.text ≠ "")
    (same : first.span.start = second.span.start) : first = second := by
  by_contra different
  have some : first.span.start < first.span.stop := start_lt_stop text
  have someToo : second.span.start < second.span.stop := start_lt_stop textToo
  rcases consecutive.apart former latter different with before | behind
  · omega
  · omega

/-- A token with text stands only once in its row. -/
theorem Consecutive.filter_span {start : Nat} {tokens : List Token} {token : Token}
    (consecutive : Consecutive start tokens) (member : token ∈ tokens) (text : token.text ≠ "") :
    tokens.filter (·.span = token.span) = [token] := by
  obtain ⟨before, after, rfl⟩ := List.append_of_mem member
  have some := start_lt_stop text
  change token.span.start < token.span.stop at some
  have ordered := consecutive.pairwise
  obtain ⟨-, later, earlier⟩ := List.pairwise_append.mp ordered
  have noneBefore : before.filter (·.span = token.span) = [] := by
    rw [List.filter_eq_nil_iff]
    intro other inside same
    have before := earlier other inside token List.mem_cons_self
    rw [of_decide_eq_true same] at before
    exact Nat.not_le_of_lt some before
  have noneAfter : after.filter (·.span = token.span) = [] := by
    rw [List.filter_eq_nil_iff]
    intro other inside same
    have behind : token.span.stop ≤ other.span.start :=
      (List.pairwise_cons.mp later).1 other inside
    rw [of_decide_eq_true same] at behind
    exact Nat.not_le_of_lt some behind
  rw [List.filter_append, noneBefore, List.nil_append, List.filter_cons, noneAfter]
  exact if_pos (decide_eq_true rfl)

open Text

/-- The edit of a token, if the replacement of its span is known. -/
def edit? (edits : List Edit) (token : Token) : Option Edit :=
  (Edit.at? edits token.span).map (Edit.mk token.span)

/-- Edits that are given token by token can be made one after the other. -/
theorem edited?_filterMap {start : Nat} {tokens : List Token}
    (consecutive : Consecutive start tokens) (edits : List Edit) :
    edited? start (spelled tokens) (tokens.filterMap (edit? edits)) =
      some (tokens.flatMap fun token => ((Edit.at? edits token.span).getD token.text).toList) := by
  induction tokens generalizing start with
  | nil => rfl
  | cons token tokens ih =>
      obtain ⟨here, rest⟩ := consecutive
      have stop : token.span.stop = start + width token.text.toList := by rw [stop_span, here]
      rw [spelled_cons, List.flatMap_cons]
      cases replaced : Edit.at? edits token.span with
      | none =>
          have spared : edit? edits token = none := by rw [edit?, replaced]; rfl
          rw [List.filterMap_cons_none spared, edited?_of_behind, ← stop, ih rest]
          · rfl
          · intro edit member
            obtain ⟨later, inside, same⟩ := List.mem_filterMap.mp member
            obtain ⟨replacement, -, rfl⟩ := Option.map_eq_some_iff.mp same
            rw [← stop]
            exact (rest.between inside).1
      | some replacement =>
          have edited : edit? edits token = some ⟨token.span, replacement⟩ := by
            rw [edit?, replaced]
            rfl
          have span : token.span = ⟨start, start + width token.text.toList⟩ := by
            rw [← stop, ← here]
            rfl
          rw [List.filterMap_cons_some edited, edited?_of_first span, ← stop, ih rest]
          rfl

/-- Edits that each replace a token with text, and the same token by the same text. -/
structure Edits (tokens : List Token) (edits : List Edit) : Prop where
  exists_token : ∀ edit ∈ edits, ∃ token ∈ tokens, token.text ≠ "" ∧ token.span = edit.span
  same : ∀ first ∈ edits, ∀ second ∈ edits, first.span = second.span → first = second

namespace Edits

variable {tokens : List Token} {edits : List Edit}

theorem at?_eq_some (replaces : Edits tokens edits) {edit : Edit} (member : edit ∈ edits) :
    Edit.at? edits edit.span = some edit.replacement := by
  unfold Edit.at?
  cases found : edits.find? (·.span = edit.span) with
  | none => exact absurd (decide_eq_true rfl) (List.find?_eq_none.mp found edit member)
  | some other =>
      have same : other.span = edit.span := by
        simpa only [decide_eq_true_eq] using List.find?_some found
      rw [replaces.same other (List.mem_of_find?_eq_some found) edit member same]
      rfl

theorem mem_of_at?_eq_some {span : Span} {replacement : String}
    (found : Edit.at? edits span = some replacement) : Edit.mk span replacement ∈ edits := by
  obtain ⟨edit, first, rfl⟩ := Option.map_eq_some_iff.mp found
  have same : edit.span = span := by
    simpa only [decide_eq_true_eq] using List.find?_some first
  rw [← same]
  exact List.mem_of_find?_eq_some first

theorem mem_filterMap_iff (replaces : Edits tokens edits) (edit : Edit) :
    edit ∈ tokens.filterMap (edit? edits) ↔ edit ∈ edits := by
  rw [List.mem_filterMap]
  constructor
  · rintro ⟨token, -, same⟩
    obtain ⟨replacement, found, rfl⟩ := Option.map_eq_some_iff.mp same
    exact mem_of_at?_eq_some found
  · intro member
    obtain ⟨token, inside, -, span⟩ := replaces.exists_token edit member
    refine ⟨token, inside, ?_⟩
    rw [edit?, span, replaces.at?_eq_some member]
    rfl

theorem start_lt_stop (replaces : Edits tokens edits) {edit : Edit} (member : edit ∈ edits) :
    edit.span.start < edit.span.stop := by
  obtain ⟨token, -, text, span⟩ := replaces.exists_token edit member
  rw [← span]
  exact Token.start_lt_stop text

theorem pairwise_filterMap (replaces : Edits tokens edits) {start : Nat}
    (consecutive : Consecutive start tokens) :
    (tokens.filterMap (edit? edits)).Pairwise
      fun first second => first.span.start < second.span.start := by
  rw [List.pairwise_filterMap]
  refine consecutive.pairwise.imp fun {token other} before first same second sameToo => ?_
  obtain ⟨replacement, found, rfl⟩ := Option.map_eq_some_iff.mp same
  obtain ⟨replacementToo, -, rfl⟩ := Option.map_eq_some_iff.mp sameToo
  exact Nat.lt_of_lt_of_le (replaces.start_lt_stop (mem_of_at?_eq_some found)) before

/-- Edits in order are, each taken once, the edits of the tokens. -/
theorem dedup_eq (replaces : Edits tokens edits) {start : Nat}
    (consecutive : Consecutive start tokens)
    (ordered : edits.Pairwise fun first second => first.span.start ≤ second.span.start) :
    edits.dedup = tokens.filterMap (edit? edits) := by
  have ascending := replaces.pairwise_filterMap consecutive
  have nodup : (tokens.filterMap (edit? edits)).Nodup :=
    ascending.imp fun before same => absurd (congrArg (·.span.start) same) (Nat.ne_of_lt before)
  have members (edit : Edit) : edit ∈ edits.dedup ↔ edit ∈ tokens.filterMap (edit? edits) := by
    rw [List.mem_dedup, replaces.mem_filterMap_iff]
  have perm := (List.perm_ext_iff_of_nodup edits.nodup_dedup nodup).mpr members
  have former : edits.dedup.Pairwise fun first second => first.span.start ≤ second.span.start :=
    ordered.sublist edits.dedup_sublist
  have latter : (tokens.filterMap (edit? edits)).Pairwise
      fun first second => first.span.start ≤ second.span.start := ascending.imp Nat.le_of_lt
  -- Two edits that start at the same offset replace the same token.
  refine perm.eq_of_pairwise (fun first second inside insideToo before behind => ?_) former latter
  have member := List.mem_dedup.mp inside
  have memberToo := (replaces.mem_filterMap_iff second).mp insideToo
  obtain ⟨token, listed, text, span⟩ := replaces.exists_token first member
  obtain ⟨other, listedToo, textToo, spanToo⟩ := replaces.exists_token second memberToo
  have starts : token.span.start = other.span.start := by
    rw [span, spanToo]
    exact Nat.le_antisymm before behind
  have tokens := consecutive.eq_of_start listed listedToo text textToo starts
  refine replaces.same first member second memberToo ?_
  rw [← span, ← spanToo, tokens]

end Edits

/-- **Edits of tokens.** Edits of consecutive tokens that are in order can be made one after the
other, each of them once, and replace the texts of the edited tokens. -/
theorem edited?_eq {start : Nat} {tokens : List Token} (consecutive : Consecutive start tokens)
    {edits : List Edit} (replaces : Edits tokens edits)
    (ordered : edits.Pairwise fun first second => first.span.start ≤ second.span.start) :
    edited? start (spelled tokens) edits.dedup =
      some (tokens.flatMap fun token => ((Edit.at? edits token.span).getD token.text).toList) := by
  rw [replaces.dedup_eq consecutive ordered]
  exact edited?_filterMap consecutive edits

end TreeLint.Token
