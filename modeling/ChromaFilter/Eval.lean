import ChromaFilter.Provider

/-!
# Evaluating a predicate tree

`RoaringMetadataFilter::eval` turns a `Where` tree into a signed bitmap by depth-first
recursion: leaves ask the provider, negations become `exclude`, and composite nodes fold their
children with `&` from the universe or `|` from the empty set.

`Where.queries` lists the calls a tree makes and `Where.sem` is its meaning over what a provider
answers, both read off the tree alone. The evaluator makes exactly those calls
(`Where.eval_calls`) and, when they succeed, computes that meaning (`Where.eval_denotes`).
-/
namespace ChromaFilter

section Eval

variable {L : Type} (tryFrom : String → Except ChromaRegexError (ChromaRegex L))
  (provider : MetadataProvider L)

/-- How a set comparison keeps one value's equality lookup. -/
def SetOperator.child : SetOperator → RoaringBitmap → SignedRoaringBitmap
  | .in, b => .include b
  | .notIn, b => .exclude b

/-- The loop of a set comparison: one equality lookup per value. -/
def evalSetValues (key : String) (setOperator : SetOperator) :
    List MetadataValue → Outcome (List SignedRoaringBitmap)
  | [] => .ok []
  | value :: values => do
    let eval ← provider.filterByMetadata key value .equal
    let childEvaluations ← evalSetValues key setOperator values
    pure (setOperator.child eval :: childEvaluations)

/-- `MetadataExpression::eval`. -/
def MetadataExpression.eval (e : MetadataExpression) : Outcome SignedRoaringBitmap :=
  match e.comparison with
  | .primitive op value =>
    match op with
    | .notEqual => do
      let b ← provider.filterByMetadata e.key value .equal
      pure (.exclude b)
    | .equal | .greaterThan | .greaterThanOrEqual | .lessThan | .lessThanOrEqual => do
      let b ← provider.filterByMetadata e.key value op
      pure (.include b)
  | .set setOperator values => do
    let childEvaluations ← evalSetValues provider e.key setOperator values.childValues
    pure (match setOperator with
      | .in => childEvaluations.foldl (· ||| ·) .empty
      | .notIn => childEvaluations.foldl (· &&& ·) .full)

/-- `DocumentExpression::eval`. -/
def DocumentExpression.eval (e : DocumentExpression) : Outcome SignedRoaringBitmap :=
  match e.operator with
  | .contains => do
    let b ← provider.filterByDocumentContains e.pattern
    pure (.include b)
  | .notContains => do
    let b ← provider.filterByDocumentContains e.pattern
    pure (.exclude b)
  | .regex => do
    let b ← provider.filterByDocumentRegex tryFrom e.pattern
    pure (.include b)
  | .notRegex => do
    let b ← provider.filterByDocumentRegex tryFrom e.pattern
    pure (.exclude b)

mutual

/-- `Where::eval`. -/
def Where.eval : Where → Outcome SignedRoaringBitmap
  | .metadata e => e.eval provider
  | .document e => e.eval tryFrom provider
  | .composite operator children => do
    let childEvaluations ← Where.evalChildren children
    pure (match operator with
      | .and => childEvaluations.foldl (· &&& ·) .full
      | .or => childEvaluations.foldl (· ||| ·) .empty)

/-- The loop of `CompositeExpression::eval`. -/
def Where.evalChildren : List Where → Outcome (List SignedRoaringBitmap)
  | [] => .ok []
  | child :: children => do
    let childEvaluation ← child.eval
    let childEvaluations ← Where.evalChildren children
    pure (childEvaluation :: childEvaluations)

end

end Eval

/-- What a provider answers to each primitive query. -/
structure ProviderAnswers where
  metadata : String → MetadataValue → PrimitiveOperator → RoaringBitmap
  contains : String → RoaringBitmap
  regex : String → RoaringBitmap

/-- A primitive call of the evaluator to its provider. -/
inductive Query where
  | metadata (key : String) (value : MetadataValue) (op : PrimitiveOperator)
  | contains (pattern : String)
  | regex (pattern : String)
  deriving DecidableEq, Repr

mutual

/-- The calls evaluating a tree makes when each succeeds, in order; `NotEqual` asks for
equality. -/
def Where.queries : Where → List Query
  | .metadata ⟨key, .primitive .notEqual v⟩ => [.metadata key v .equal]
  | .metadata ⟨key, .primitive op v⟩ => [.metadata key v op]
  | .metadata ⟨key, .set _ (.bool vs)⟩ => vs.map fun b => .metadata key (.bool b) .equal
  | .metadata ⟨key, .set _ (.int vs)⟩ => vs.map fun i => .metadata key (.int i) .equal
  | .metadata ⟨key, .set _ (.float vs)⟩ => vs.map fun f => .metadata key (.float f) .equal
  | .metadata ⟨key, .set _ (.str vs)⟩ => vs.map fun s => .metadata key (.str s) .equal
  | .document ⟨.contains, p⟩ | .document ⟨.notContains, p⟩ => [.contains p]
  | .document ⟨.regex, p⟩ | .document ⟨.notRegex, p⟩ => [.regex p]
  | .composite _ children => Where.queriesAll children

def Where.queriesAll : List Where → List Query
  | [] => []
  | child :: children => child.queries ++ Where.queriesAll children

end

/-- The provider answers the call with `a`'s answer. -/
def Query.Answered {L : Type} (tryFrom : String → Except ChromaRegexError (ChromaRegex L))
    (provider : MetadataProvider L) (a : ProviderAnswers) : Query → Prop
  | .metadata key v op => provider.filterByMetadata key v op = .ok (a.metadata key v op)
  | .contains p => provider.filterByDocumentContains p = .ok (a.contains p)
  | .regex p => provider.filterByDocumentRegex tryFrom p = .ok (a.regex p)

def Query.call {L : Type} (tryFrom : String → Except ChromaRegexError (ChromaRegex L))
    (provider : MetadataProvider L) : Query → Outcome RoaringBitmap
  | .metadata key v op => provider.filterByMetadata key v op
  | .contains p => provider.filterByDocumentContains p
  | .regex p => provider.filterByDocumentRegex tryFrom p

/-- Making calls in order, stopping at the first that does not succeed. -/
def Query.callAll {L : Type} (tryFrom : String → Except ChromaRegexError (ChromaRegex L))
    (provider : MetadataProvider L) : List Query → Outcome Unit
  | [] => .ok ()
  | q :: qs => do
    let _ ← q.call tryFrom provider
    Query.callAll tryFrom provider qs

mutual

/-- The evaluator never asks for inequality: the column indexes have no lookup for it. -/
theorem Where.notEqual_not_mem_queries (key : String) (v : MetadataValue) :
    ∀ P : Where, Query.metadata key v .notEqual ∉ P.queries
  | .metadata ⟨_, .primitive op _⟩ => by cases op <;> simp [Where.queries]
  | .metadata ⟨_, .set _ vs⟩ => by cases vs <;> simp [Where.queries]
  | .document ⟨op, _⟩ => by cases op <;> simp [Where.queries]
  | .composite _ children => Where.notEqual_not_mem_queriesAll key v children

theorem Where.notEqual_not_mem_queriesAll (key : String) (v : MetadataValue) :
    ∀ children : List Where, Query.metadata key v .notEqual ∉ Where.queriesAll children
  | [] => by simp [Where.queriesAll]
  | child :: children => by
    simp only [Where.queriesAll, List.mem_append, not_or]
    exact ⟨Where.notEqual_not_mem_queries key v child,
      Where.notEqual_not_mem_queriesAll key v children⟩

end

mutual

/-- The offsets a predicate tree selects over a provider's answers. -/
def Where.sem (a : ProviderAnswers) : Where → UInt32 → Prop
  | .metadata ⟨key, .primitive .notEqual v⟩, o => o ∉ a.metadata key v .equal
  | .metadata ⟨key, .primitive op v⟩, o => o ∈ a.metadata key v op
  | .metadata ⟨key, .set .in vs⟩, o => ∃ v, vs.has v ∧ o ∈ a.metadata key v .equal
  | .metadata ⟨key, .set .notIn vs⟩, o => ∀ v, vs.has v → o ∉ a.metadata key v .equal
  | .document ⟨.contains, p⟩, o => o ∈ a.contains p
  | .document ⟨.notContains, p⟩, o => o ∉ a.contains p
  | .document ⟨.regex, p⟩, o => o ∈ a.regex p
  | .document ⟨.notRegex, p⟩, o => o ∉ a.regex p
  | .composite .and children, o => Where.semAll a children o
  | .composite .or children, o => Where.semAny a children o

def Where.semAll (a : ProviderAnswers) : List Where → UInt32 → Prop
  | [], _ => True
  | child :: children, o => child.sem a o ∧ Where.semAll a children o

def Where.semAny (a : ProviderAnswers) : List Where → UInt32 → Prop
  | [], _ => False
  | child :: children, o => child.sem a o ∨ Where.semAny a children o

end

section Semantics

variable {L : Type} {tryFrom : String → Except ChromaRegexError (ChromaRegex L)}
  {provider : MetadataProvider L} {a : ProviderAnswers}

/-- A set comparison asks for equality with each of its values, in order. -/
theorem Where.queries_set (key : String) (op : SetOperator) (vs : MetadataSetValue) :
    (Where.metadata ⟨key, .set op vs⟩).queries = vs.childValues.map (.metadata key · .equal) := by
  cases vs <;> simp [Where.queries, MetadataSetValue.childValues]

theorem MetadataSetValue.mem_childValues {vs : MetadataSetValue} {v : MetadataValue} :
    v ∈ vs.childValues ↔ vs.has v = true := by
  cases vs <;> cases v <;> simp [MetadataSetValue.childValues, MetadataSetValue.has]

theorem evalSetValues_eq_ok (key : String) (setOperator : SetOperator) (values : List MetadataValue)
    (ha : ∀ v ∈ values, provider.filterByMetadata key v .equal = .ok (a.metadata key v .equal)) :
    evalSetValues provider key setOperator values =
      .ok (values.map fun v => setOperator.child (a.metadata key v .equal)) := by
  induction values with
  | nil => rfl
  | cons v values ih =>
    simp only [List.mem_cons, forall_eq_or_imp] at ha
    simp [evalSetValues, ha.1, ih ha.2]

theorem MetadataExpression.eval_sem (e : MetadataExpression)
    (ha : ∀ q ∈ (Where.metadata e).queries, q.Answered tryFrom provider a) :
    ∃ s, e.eval provider = .ok s ∧ ∀ o, o ∈ s ↔ (Where.metadata e).sem a o := by
  obtain ⟨key, comparison⟩ := e
  cases comparison with
  | primitive op v =>
    cases op <;> simp_all [Where.queries, Query.Answered, MetadataExpression.eval, Where.sem]
  | set setOperator vs =>
    simp only [Where.queries_set, List.mem_map, forall_exists_index, and_imp,
      forall_apply_eq_imp_iff₂, Query.Answered] at ha
    cases setOperator <;>
      simp [MetadataExpression.eval, Where.sem, evalSetValues_eq_ok _ _ _ ha, SetOperator.child,
        SignedRoaringBitmap.mem_foldl_bitor, SignedRoaringBitmap.mem_foldl_bitand,
        ← MetadataSetValue.mem_childValues]

theorem DocumentExpression.eval_sem (e : DocumentExpression)
    (ha : ∀ q ∈ (Where.document e).queries, q.Answered tryFrom provider a) :
    ∃ s, e.eval tryFrom provider = .ok s ∧ ∀ o, o ∈ s ↔ (Where.document e).sem a o := by
  obtain ⟨operator, pattern⟩ := e
  cases operator <;> simp_all [Where.queries, Query.Answered, DocumentExpression.eval, Where.sem]

mutual

/-- When a provider answers each call a tree makes, evaluation denotes the tree's meaning. -/
theorem Where.eval_sem :
    ∀ P : Where, (∀ q ∈ P.queries, q.Answered tryFrom provider a) →
      ∃ s, P.eval tryFrom provider = .ok s ∧ ∀ o, o ∈ s ↔ P.sem a o
  | .metadata e, ha => e.eval_sem ha
  | .document e, ha => e.eval_sem ha
  | .composite operator children, ha => by
    obtain ⟨l, hl, hall, hany⟩ := Where.evalChildren_sem children ha
    cases operator <;> simp [Where.eval, hl, Where.sem, SignedRoaringBitmap.mem_foldl_bitand,
      SignedRoaringBitmap.mem_foldl_bitor, hall, hany]

theorem Where.evalChildren_sem :
    ∀ children : List Where, (∀ q ∈ Where.queriesAll children, q.Answered tryFrom provider a) →
      ∃ l, Where.evalChildren tryFrom provider children = .ok l ∧
        (∀ o, (∀ s ∈ l, o ∈ s) ↔ Where.semAll a children o) ∧
        (∀ o, (∃ s ∈ l, o ∈ s) ↔ Where.semAny a children o)
  | [], _ => ⟨[], rfl, by simp [Where.semAll], by simp [Where.semAny]⟩
  | child :: children, ha => by
    simp only [Where.queriesAll, List.mem_append, or_imp, forall_and] at ha
    obtain ⟨s, hs, hmem⟩ := Where.eval_sem child ha.1
    obtain ⟨l, hl, hall, hany⟩ := Where.evalChildren_sem children ha.2
    exact ⟨s :: l, by simp [Where.evalChildren, hs, hl], by simp [Where.semAll, hmem, hall],
      by simp [Where.semAny, hmem, hany]⟩

end

/-- For every predicate tree of any depth and arity, empty composites and empty sets included,
whose calls to the provider succeed: the evaluator never asks for inequality, never panics, and
returns a signed bitmap denoting the tree's meaning over the provider's answers. -/
theorem Where.eval_denotes (P : Where) (ha : ∀ q ∈ P.queries, q.Answered tryFrom provider a) :
    (∀ key v, Query.metadata key v .notEqual ∉ P.queries) ∧
    (∀ m, P.eval tryFrom provider ≠ .panic m) ∧
      ∃ s, P.eval tryFrom provider = .ok s ∧ ∀ o, o ∈ s ↔ P.sem a o := by
  obtain ⟨s, hs, hmem⟩ := Where.eval_sem P ha
  exact ⟨fun key v => P.notEqual_not_mem_queries key v, fun m => by simp [hs], s, hs, hmem⟩

end Semantics

theorem Where.eval_denotes_not_equal :
    ∃ reader, MetadataLogReader.create [⟨.addNew, 1, .ok ⟨"a", AList.singleton "k" (.int 1), none⟩⟩,
        ⟨.addNew, 2, .ok ⟨"b", AList.singleton "k" (.int 0), none⟩⟩] = .ok reader ∧
      (∀ key v, Query.metadata key v .notEqual ∉
        (Where.composite .and [.metadata ⟨"k", .primitive .notEqual (.int 0)⟩]).queries) ∧
      (∀ m, (Where.composite .and [.metadata ⟨"k", .primitive .notEqual (.int 0)⟩]).eval
        (fun _ => .ok ⟨(), true, .ok ⟨fun _ => true⟩⟩) (.log reader) ≠ .panic m) ∧
      ∃ s, (Where.composite .and [.metadata ⟨"k", .primitive .notEqual (.int 0)⟩]).eval
        (fun _ => .ok ⟨(), true, .ok ⟨fun _ => true⟩⟩) (.log reader) = .ok s ∧
        ∀ o, o ∈ s ↔ (Where.composite .and [.metadata ⟨"k", .primitive .notEqual (.int 0)⟩]).sem
          ⟨fun key v op => if key = "k" ∧ v = .int 0 ∧ op = .equal then {2} else ∅,
            fun _ => ∅, fun _ => ∅⟩ o := by
  refine ⟨_, rfl, Where.eval_denotes _ fun q hq => ?_⟩
  simp only [Where.queries, Where.queriesAll, List.append_nil, List.mem_singleton] at hq
  subst hq
  simp only [Query.Answered]
  decide

section EvalErrors

open Outcome

variable {L : Type} (tryFrom : String → Except ChromaRegexError (ChromaRegex L))
  (provider : MetadataProvider L)

theorem evalSetValues_errorsIn (key : String) (setOperator : SetOperator) :
    ∀ values : List MetadataValue,
      ErrorsIn FilterError.RaisedByProvider (evalSetValues provider key setOperator values)
  | [] => errorsIn_ok
  | _ :: values => errorsIn_bind (filterByMetadata_errorsIn provider _ _ _ (by decide)) fun _ _ =>
    errorsIn_bind (evalSetValues_errorsIn key setOperator values) fun _ _ => errorsIn_pure

theorem MetadataExpression.eval_errorsIn (e : MetadataExpression) :
    ErrorsIn FilterError.RaisedByProvider (e.eval provider) := by
  obtain ⟨key, comparison⟩ := e
  cases comparison with
  | primitive op v =>
    cases op <;>
      exact errorsIn_bind (filterByMetadata_errorsIn provider _ _ _ (by decide)) fun _ _ =>
        errorsIn_pure
  | set setOperator vs =>
    exact errorsIn_bind (evalSetValues_errorsIn provider key setOperator _) fun _ _ => errorsIn_pure

theorem DocumentExpression.eval_errorsIn (e : DocumentExpression) :
    ErrorsIn FilterError.RaisedByProvider (e.eval tryFrom provider) := by
  obtain ⟨op, p⟩ := e
  cases op
  case contains | notContains =>
    exact errorsIn_bind (filterByDocumentContains_errorsIn provider _) fun _ _ => errorsIn_pure
  case regex | notRegex =>
    exact errorsIn_bind (filterByDocumentRegex_errorsIn provider tryFrom _) fun _ _ => errorsIn_pure

mutual

/-- Evaluating a tree raises only what a provider call raises, and never panics. -/
theorem Where.eval_errorsIn :
    ∀ P : Where, ErrorsIn FilterError.RaisedByProvider (P.eval tryFrom provider)
  | .metadata e => e.eval_errorsIn provider
  | .document e => e.eval_errorsIn tryFrom provider
  | .composite _ children =>
    errorsIn_bind (Where.evalChildren_errorsIn children) fun _ _ => errorsIn_pure

theorem Where.evalChildren_errorsIn :
    ∀ children : List Where,
      ErrorsIn FilterError.RaisedByProvider (Where.evalChildren tryFrom provider children)
  | [] => errorsIn_ok
  | child :: children => errorsIn_bind (Where.eval_errorsIn child) fun _ _ =>
    errorsIn_bind (Where.evalChildren_errorsIn children) fun _ _ => errorsIn_pure

end

end EvalErrors

section Calls

open Outcome

variable {L : Type} (tryFrom : String → Except ChromaRegexError (ChromaRegex L))
  (provider : MetadataProvider L)

theorem Query.callAll_append (qs qs' : List Query) :
    Query.callAll tryFrom provider (qs ++ qs') =
      (Query.callAll tryFrom provider qs >>= fun _ => Query.callAll tryFrom provider qs') := by
  induction qs with
  | nil => rfl
  | cons q qs ih =>
    show (q.call tryFrom provider >>= fun _ => Query.callAll tryFrom provider (qs ++ qs')) = _
    simp only [Query.callAll, ih, bind_assoc]

theorem Query.callAll_eq_ok (qs : List Query) :
    Query.callAll tryFrom provider qs = .ok () ↔
      ∀ q ∈ qs, ∃ b, q.call tryFrom provider = .ok b := by
  induction qs with
  | nil => simp [Query.callAll]
  | cons q qs ih => simp [Query.callAll, bind_eq_ok, ih]

theorem Query.callAll_eq_err (qs : List Query) (e : FilterError) :
    Query.callAll tryFrom provider qs = .err e ↔ ∃ pre q post, qs = pre ++ q :: post ∧
      (∀ q' ∈ pre, ∃ b, q'.call tryFrom provider = .ok b) ∧ q.call tryFrom provider = .err e := by
  induction qs with
  | nil => simp [Query.callAll]
  | cons q qs ih =>
    rw [exists_split_cons, ← ih]
    simp only [Query.callAll, bind_eq_err, exists_and_right]

theorem evalSetValues_callAll (key : String) (setOperator : SetOperator)
    (values : List MetadataValue) :
    (evalSetValues provider key setOperator values >>= fun _ => pure ()) =
      Query.callAll tryFrom provider (values.map (.metadata key · .equal)) := by
  induction values with
  | nil => rfl
  | cons v values ih =>
    simp only [evalSetValues, List.map_cons, Query.callAll, Query.call, bind_assoc, pure_eq,
      ok_bind, ← ih]

mutual

theorem Where.eval_callAll :
    ∀ P : Where,
      (P.eval tryFrom provider >>= fun _ => pure ()) = Query.callAll tryFrom provider P.queries
  | .metadata ⟨key, .primitive op v⟩ => by
    cases op <;> simp only [Where.eval, MetadataExpression.eval, Where.queries, Query.callAll,
      Query.call, bind_assoc, pure_eq, ok_bind]
  | .metadata ⟨key, .set op vs⟩ => by
    simp only [Where.eval, MetadataExpression.eval, Where.queries_set, bind_assoc, pure_eq, ok_bind]
    exact evalSetValues_callAll tryFrom provider key op vs.childValues
  | .document ⟨op, p⟩ => by
    cases op <;> simp only [Where.eval, DocumentExpression.eval, Where.queries, Query.callAll,
      Query.call, bind_assoc, pure_eq, ok_bind]
  | .composite op children => by
    simp only [Where.eval, Where.queries, bind_assoc, pure_eq, ok_bind]
    exact Where.evalChildren_callAll children

theorem Where.evalChildren_callAll :
    ∀ children : List Where, (Where.evalChildren tryFrom provider children >>= fun _ => pure ()) =
      Query.callAll tryFrom provider (Where.queriesAll children)
  | [] => rfl
  | child :: children => by
    rw [Where.queriesAll, Query.callAll_append, ← Where.eval_callAll child,
      ← Where.evalChildren_callAll children]
    simp only [Where.evalChildren, bind_assoc, pure_eq, ok_bind]

end

/-- The evaluator makes exactly the calls `Where.queries` lists, in order, and fails with the
error of the first call that fails. -/
theorem Where.eval_calls (P : Where) :
    (P.eval tryFrom provider >>= fun _ => pure ()) = Query.callAll tryFrom provider P.queries ∧
    ((∃ s, P.eval tryFrom provider = .ok s) ↔
      ∀ q ∈ P.queries, ∃ b, q.call tryFrom provider = .ok b) ∧
    ∀ e, P.eval tryFrom provider = .err e ↔ ∃ pre q post, P.queries = pre ++ q :: post ∧
      (∀ q' ∈ pre, ∃ b, q'.call tryFrom provider = .ok b) ∧ q.call tryFrom provider = .err e := by
  have h := Where.eval_callAll tryFrom provider P
  refine ⟨h, ?_, fun e => ?_⟩
  · rw [← Query.callAll_eq_ok, ← h, bind_eq_ok]
    simp
  · rw [← Query.callAll_eq_err, ← h, bind_eq_err]
    simp

end Calls

section LogErrors

variable {L : Type} (tryFrom : String → Except ChromaRegexError (ChromaRegex L))

/-- Whether a document leaf is a regex whose pattern does not parse or compile. -/
def DocumentExpression.hasInvalidRegex (e : DocumentExpression) : Bool :=
  match e.operator with
  | .contains | .notContains => false
  | .regex | .notRegex => regexFails tryFrom e.pattern

mutual

/-- Whether a tree holds, at any depth, a regex leaf whose pattern does not parse or compile. -/
def Where.hasInvalidRegex : Where → Bool
  | .metadata _ => false
  | .document e => e.hasInvalidRegex tryFrom
  | .composite _ children => Where.anyHasInvalidRegex children

def Where.anyHasInvalidRegex : List Where → Bool
  | [] => false
  | child :: children => child.hasInvalidRegex || Where.anyHasInvalidRegex children

end

variable {tryFrom} (reader : MetadataLogReader)

theorem evalSetValues_log_ok (key : String) (setOperator : SetOperator) :
    ∀ values : List MetadataValue,
      ∃ l, evalSetValues (.log (L := L) reader) key setOperator values = .ok l
  | [] => ⟨[], rfl⟩
  | v :: values => by
    obtain ⟨s, hs⟩ := filterByMetadata_log_ok (L := L) reader key v
      (show PrimitiveOperator.equal ≠ .notEqual by decide)
    obtain ⟨l, hl⟩ := evalSetValues_log_ok key setOperator values
    exact ⟨_, by simp [evalSetValues, hs, hl]; rfl⟩

theorem MetadataExpression.eval_log_ok (e : MetadataExpression) :
    ∃ s, e.eval (.log (L := L) reader) = .ok s := by
  obtain ⟨key, comparison⟩ := e
  cases comparison with
  | primitive op v =>
    by_cases hop : op = .notEqual
    · subst hop
      obtain ⟨s, hs⟩ := filterByMetadata_log_ok (L := L) reader key v
        (show PrimitiveOperator.equal ≠ .notEqual by decide)
      exact ⟨.exclude s, by simp [MetadataExpression.eval, hs]⟩
    · obtain ⟨s, hs⟩ := filterByMetadata_log_ok (L := L) reader key v hop
      refine ⟨.include s, ?_⟩
      cases op <;> first | exact absurd rfl hop | simp [MetadataExpression.eval, hs]
  | set setOperator vs =>
    obtain ⟨l, hl⟩ := evalSetValues_log_ok (L := L) reader key setOperator vs.childValues
    exact ⟨_, by simp [MetadataExpression.eval, hl]; rfl⟩

theorem DocumentExpression.eval_log (e : DocumentExpression) :
    (e.hasInvalidRegex tryFrom = true →
      ∃ err, e.eval tryFrom (.log (L := L) reader) = .err (.regex err)) ∧
    (e.hasInvalidRegex tryFrom = false → ∃ s, e.eval tryFrom (.log (L := L) reader) = .ok s) := by
  obtain ⟨op, p⟩ := e
  cases op <;> simp only [DocumentExpression.hasInvalidRegex, DocumentExpression.eval]
  case contains | notContains => exact ⟨nofun, fun _ => ⟨_, rfl⟩⟩
  all_goals
    refine ⟨fun h => ?_, fun h => ?_⟩
    · obtain ⟨err, he⟩ := MetadataProvider.filterByDocumentRegex_log_of_fails reader h
      exact ⟨err, by simp [he]⟩
    · obtain ⟨s, hs⟩ := MetadataProvider.filterByDocumentRegex_log_of_not_fails reader h
      exact ⟨_, by simp [hs]; rfl⟩

mutual

/-- Over a log the evaluator fails exactly on trees with an invalid regex leaf, and then with
a regex error. -/
theorem Where.eval_log :
    ∀ P : Where,
      (P.hasInvalidRegex tryFrom = true →
        ∃ err, P.eval tryFrom (.log (L := L) reader) = .err (.regex err)) ∧
      (P.hasInvalidRegex tryFrom = false → ∃ s, P.eval tryFrom (.log (L := L) reader) = .ok s)
  | .metadata e => ⟨nofun, fun _ => e.eval_log_ok reader⟩
  | .document e => e.eval_log reader
  | .composite operator children => by
    obtain ⟨hErr, hOk⟩ := Where.evalChildren_log children
    refine ⟨fun h => ?_, fun h => ?_⟩
    · obtain ⟨err, he⟩ := hErr h
      exact ⟨err, by simp [Where.eval, he]⟩
    · obtain ⟨l, hl⟩ := hOk h
      exact ⟨_, by simp [Where.eval, hl]; rfl⟩

theorem Where.evalChildren_log :
    ∀ children : List Where,
      (Where.anyHasInvalidRegex tryFrom children = true →
        ∃ err, Where.evalChildren tryFrom (.log (L := L) reader) children = .err (.regex err)) ∧
      (Where.anyHasInvalidRegex tryFrom children = false →
        ∃ l, Where.evalChildren tryFrom (.log (L := L) reader) children = .ok l)
  | [] => ⟨nofun, fun _ => ⟨[], rfl⟩⟩
  | child :: children => by
    obtain ⟨hcErr, hcOk⟩ := Where.eval_log child
    obtain ⟨hErr, hOk⟩ := Where.evalChildren_log children
    simp only [Where.anyHasInvalidRegex, Bool.or_eq_true, Bool.or_eq_false_iff]
    refine ⟨fun h => ?_, fun ⟨hc, hs⟩ => ?_⟩
    · cases hc : child.hasInvalidRegex tryFrom
      · obtain ⟨s, hs⟩ := hcOk hc
        obtain ⟨err, he⟩ := hErr (by simpa [hc] using h)
        exact ⟨err, by simp [Where.evalChildren, hs, he]⟩
      · obtain ⟨err, he⟩ := hcErr hc
        exact ⟨err, by simp [Where.evalChildren, he]⟩
    · obtain ⟨s, hs'⟩ := hcOk hc
      obtain ⟨l, hl⟩ := hOk hs
      exact ⟨_, by simp [Where.evalChildren, hs', hl]; rfl⟩

end

end LogErrors

end ChromaFilter
