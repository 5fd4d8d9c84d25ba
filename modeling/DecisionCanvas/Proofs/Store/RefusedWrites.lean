import DecisionCanvas.Proofs.Compiled.Failure
import DecisionCanvas.Proofs.Store.Attempts
import DecisionCanvas.Proofs.Store.Budget
import DecisionCanvas.Proofs.Store.Filling

/-!
# What refused writes leave behind

A write is refused because the budget is spent, and then nothing at all happens, or because
it refers to something that is not stored, and then it is counted and nothing else happens.
So a store whose budget is spent stays as it is for good and only answers reads, and a refused
write never uses up an id: the next expression gets the number after the highest one that was
ever given out.
-/

namespace DecisionCanvas

/-- The tree that has to be stored for a write. -/
def Write.tree? : Write → Option Int
  | .upsertTree _ => none
  | .insertExpression tree _ | .insertBranch tree _ => some tree
  | .bindVariable _ tree | .bindConditional _ tree => some tree

/-- The expressions that have to be stored in that tree. -/
def Write.references : Write → List Int
  | .insertExpression _ expression => expression.children
  | .insertBranch _ record => record.referenced
  | .upsertTree _ | .bindVariable _ _ | .bindConditional _ _ => []

namespace TreeStore

/-- The error that a write is answered with. -/
def refusal? (store : TreeStore) : Write → Option StoreError
  | .upsertTree record => failure? (store.upsertTree record).1
  | .insertExpression tree expression => failure? (store.insertExpression tree expression).1
  | .insertBranch tree record => failure? (store.insertBranch tree record).1
  | .bindVariable key tree => failure? (store.bindVariable key tree).1
  | .bindConditional key tree => failure? (store.bindConditional key tree).1

/-- Whether what a write is rejected for is indeed not stored. -/
def Lacks (store : TreeStore) (write : Write) : Rejection → Prop
  | .budgetSpent _ => False
  | .unknownTree tree => write.tree? = some tree ∧ ∀ held ∈ store.trees, held.id ≠ tree
  | .unknownExpression expression tree =>
    write.tree? = some tree ∧ expression ∈ write.references ∧
      ∃ held ∈ store.trees, held.id = tree ∧ expression ∉ held.expressions.map Expression.id

/-- The two ways in which a write is refused, each with the store that it leaves. -/
inductive Refused (store : TreeStore) (write : Write) : StoreError → Prop
  | spent : store.isSpent = true → store.afterWrite write = store →
      Refused store write (.rejected (.budgetSpent store.writes))
  | lacking {reason : Rejection} : store.isSpent = false → store.Lacks write reason →
      store.afterWrite write = store.tick → Refused store write (.rejected reason)

/-- A store that no write changes any more and whose reads still answer. -/
structure Frozen (store : TreeStore) (limit : Nat) : Prop where
  unchanged : ∀ later, store.afterWrites later = store
  refuses : ∀ write, store.refusal? write = some (.rejected (.budgetSpent limit))
  fetches_iff : ∀ key held, store.fetch key = .ok held ↔
    held ∈ store.trees ∧ held.record.key = key
  variables_fetched : ∀ key tree, store.variableBinding? key = some tree →
    ∃ held, held.id = tree ∧ store.fetch held.record.key = .ok held
  conditionals_fetched : ∀ key tree, store.conditionalBinding? key = some tree →
    ∃ held, held.id = tree ∧ store.fetch held.record.key = .ok held

/-- The id that a write gives to an expression. -/
def issuedBy (store : TreeStore) : Write → Option Int
  | .insertExpression tree expression => (store.insertExpression tree expression).1.toOption
  | .upsertTree _ | .insertBranch _ _ | .bindVariable _ _ | .bindConditional _ _ => none

/-- The ids that writes give to expressions, one write after another. -/
def issued : TreeStore → List Write → List Int
  | _, [] => []
  | store, write :: rest => (store.issuedBy write).toList ++ (store.afterWrite write).issued rest

variable {store : TreeStore} {write : Write} {reason : Rejection}

/-! ## Refusals -/

/-- A write that needs something fails only for want of it. -/
theorem required_eq_error {Result : Type} {required : Except Rejection Unit}
    {done : Result × TreeStore}
    (hrefused : (match required with
      | .error reason => .error reason
      | .ok () => .ok done) = Except.error reason) : required = .error reason := by
  cases required with
  | error other => simpa using hrefused
  | ok _ => simp at hrefused

/-- A counted write fails without budget or because its attempt does. -/
theorem counted_eq_error {Result : Type} {error : StoreError} {after : TreeStore}
    {attempt : TreeStore → Except Rejection (Result × TreeStore)}
    (hcounted : store.counted attempt = (.error error, after)) :
    (store.isSpent = true ∧ error = .rejected (.budgetSpent store.writes) ∧ after = store) ∨
      ∃ reason, store.isSpent = false ∧ attempt store.tick = .error reason ∧
        error = .rejected reason ∧ after = store.tick := by
  cases hspent : store.isSpent with
  | true =>
      rw [counted_spent hspent] at hcounted
      cases hcounted
      exact Or.inl ⟨rfl, rfl, rfl⟩
  | false =>
      cases hattempt : attempt store.tick with
      | ok done => simp [counted_ok hspent done.1 done.2 hattempt] at hcounted
      | error reason =>
          rw [counted_error hspent hattempt] at hcounted
          cases hcounted
          exact Or.inr ⟨reason, rfl, rfl, rfl, rfl⟩

section Integrity

variable (hstore : store.Integrity)
include hstore

theorem lacks_of_missing_tree {tree : Int} (htree : write.tree? = some tree)
    (hmissing : store.tree? tree = none) : store.Lacks write (.unknownTree tree) := by
  refine ⟨htree, fun held hheld hid => ?_⟩
  have hfound := hstore.tree?_eq_some_iff.mpr ⟨hheld, hid⟩
  exact absurd (hmissing.symm.trans hfound) (by simp)

theorem lacks_of_requireTree {tree : Int} (htree : write.tree? = some tree)
    (hrefused : store.requireTree tree = .error reason) : store.Lacks write reason := by
  rw [requireTree] at hrefused
  cases hfound : store.tree? tree with
  | some held => simp [hfound] at hrefused
  | none =>
      simp only [hfound, Option.isSome_none, Bool.false_eq_true, if_false,
        Except.error.injEq] at hrefused
      exact hrefused ▸ lacks_of_missing_tree hstore htree hfound

theorem lacks_of_requireExpressions {tree : Int} (htree : write.tree? = some tree)
    (hrefused : store.requireExpressions tree write.references = .error reason) :
    store.Lacks write reason := by
  rw [requireExpressions] at hrefused
  cases hfound : store.tree? tree with
  | none =>
      simp only [hfound, Except.error.injEq] at hrefused
      exact hrefused ▸ lacks_of_missing_tree hstore htree hfound
  | some held =>
      cases hmissing : missingExpression? held write.references with
      | none => simp [hfound, hmissing] at hrefused
      | some expression =>
          simp only [hfound, hmissing, Except.error.injEq] at hrefused
          obtain ⟨hheld, hid⟩ := hstore.tree?_eq_some_iff.mp hfound
          have habsent := List.find?_some hmissing
          rw [Bool.not_eq_true', List.any_eq_false] at habsent
          refine hrefused ▸ ⟨htree, List.mem_of_find?_eq_some hmissing, held, hheld, hid, ?_⟩
          intro hlisted
          obtain ⟨other, hother, hsame⟩ := List.mem_map.mp hlisted
          exact habsent other hother (beq_iff_eq.mpr hsame)

/-- Every write is a counted attempt, which fails only for want of what the write refers
to. -/
theorem exists_attempt (write : Write) :
    ∃ (Result : Type) (attempt : TreeStore → Except Rejection (Result × TreeStore)),
      store.refusal? write = failure? (store.counted attempt).1 ∧
      store.afterWrite write = (store.counted attempt).2 ∧
      ∀ reason, attempt store.tick = .error reason → store.Lacks write reason := by
  -- counting leaves the trees alone, so what is missing afterwards was missing before
  have hlacks : ∀ reason, store.tick.Lacks write reason → store.Lacks write reason := by
    intro reason hlacks
    cases reason <;> exact hlacks
  cases write with
  | upsertTree record =>
      refine ⟨_, _, rfl, rfl, fun reason hrefused => ?_⟩
      cases hkey : store.tick.keys.get? record.key <;> simp [hkey] at hrefused
  | insertExpression _ _ | insertBranch _ _ =>
      refine ⟨_, _, rfl, rfl, fun reason hrefused => hlacks reason ?_⟩
      exact lacks_of_requireExpressions hstore.tick rfl (required_eq_error hrefused)
  | bindVariable _ _ | bindConditional _ _ =>
      refine ⟨_, _, rfl, rfl, fun reason hrefused => hlacks reason ?_⟩
      exact lacks_of_requireTree hstore.tick rfl (required_eq_error hrefused)

theorem refused_of_refusal? {error : StoreError} (hrefused : store.refusal? write = some error) :
    store.Refused write error := by
  obtain ⟨Result, attempt, hanswer, hafter, hlacks⟩ := exists_attempt hstore write
  rw [hanswer, failure?_eq_some_iff] at hrefused
  have hcounted : store.counted attempt = (.error error, store.afterWrite write) :=
    Prod.ext hrefused hafter.symm
  rcases counted_eq_error hcounted with
    ⟨hspent, rfl, hsame⟩ | ⟨reason, hopen, hattempt, rfl, hcounts⟩
  · exact .spent hspent hsame
  · exact .lacking hopen (hlacks reason hattempt) hcounts

/-! ## Without budget -/

theorem refusal?_of_spent (hspent : store.isSpent = true) (write : Write) :
    store.refusal? write = some (.rejected (.budgetSpent store.writes)) := by
  obtain ⟨Result, attempt, hanswer, -, -⟩ := exists_attempt hstore write
  rw [hanswer, counted_spent hspent, failure?]

omit hstore in
theorem afterWrites_of_spent (hspent : store.isSpent = true) (later : List Write) :
    store.afterWrites later = store := by
  induction later with
  | nil => rfl
  | cons write rest ih =>
      obtain ⟨Result, attempt, hafter, -⟩ := store.afterWrite_eq_counted write
      rw [afterWrites, List.foldl_cons, hafter, counted_spent hspent]
      exact ih

/-- A tree is fetched exactly under its own key. -/
theorem fetch_eq_ok_iff_mem {key : String} {held : StoredTree} :
    store.fetch key = .ok held ↔ held ∈ store.trees ∧ held.record.key = key := by
  rw [fetch_eq_ok_iff hstore, hstore.tree?_eq_some_iff, hstore.filed_iff]
  constructor
  · rintro ⟨⟨other, hother, hid, hkey⟩, hheld, -⟩
    exact ⟨hheld, hstore.eq_of_id_eq hother hheld hid ▸ hkey⟩
  · rintro ⟨hheld, hkey⟩
    exact ⟨⟨held, hheld, rfl, hkey⟩, hheld, rfl⟩

theorem frozen_of_spent (hspent : store.isSpent = true) : store.Frozen store.writes where
  unchanged := afterWrites_of_spent hspent
  refuses := refusal?_of_spent hstore hspent
  fetches_iff _ _ := fetch_eq_ok_iff_mem hstore
  variables_fetched key tree hbound := by
    obtain ⟨held, hheld, hid⟩ := hstore.variables_bound key tree hbound
    exact ⟨held, hid, (fetch_eq_ok_iff_mem hstore).mpr ⟨hheld, rfl⟩⟩
  conditionals_fetched key tree hbound := by
    obtain ⟨held, hheld, hid⟩ := hstore.conditionals_bound key tree hbound
    exact ⟨held, hid, (fetch_eq_ok_iff_mem hstore).mpr ⟨hheld, rfl⟩⟩

end Integrity

/-! ## Ids of expressions -/

theorem insertExpression_eq_ok {tree id : Int} {expression : Expression} {after : TreeStore}
    (hinserted : store.insertExpression tree expression = (.ok id, after)) :
    id = store.lastExpression + 1 ∧ after.lastExpression = id := by
  have hattempt := attempt_of_counted hinserted
  split at hattempt
  · cases hattempt
  · cases hattempt
    exact ⟨rfl, rfl⟩

/-- A write that gives out no id leaves the last one as it is. -/
theorem lastExpression_counted {Result : Type}
    {attempt : TreeStore → Except Rejection (Result × TreeStore)}
    (hattempt : ∀ before result after, attempt before = .ok (result, after) →
      after.lastExpression = before.lastExpression) :
    (store.counted attempt).2.lastExpression = store.lastExpression := by
  rcases counted_cases store attempt with hsame | hcounted | ⟨result, hdone⟩
  · rw [hsame]
  · rw [hcounted]
    rfl
  · exact hattempt store.tick result _ hdone

/-- A write moves the last id on exactly to the id that it gives out. -/
theorem lastExpression_afterWrite (store : TreeStore) (write : Write) :
    (store.afterWrite write).lastExpression =
      (store.issuedBy write).toList.foldl max store.lastExpression := by
  cases write with
  | insertExpression tree expression =>
      rw [afterWrite, issuedBy]
      rcases hinserted : store.insertExpression tree expression with ⟨answer, after⟩
      cases answer with
      | ok id =>
          obtain ⟨hid, hlast⟩ := insertExpression_eq_ok hinserted
          change after.lastExpression = max store.lastExpression id
          omega
      | error error =>
          rcases counted_eq_error hinserted with ⟨-, -, rfl⟩ | ⟨-, -, -, -, rfl⟩ <;> rfl
  | upsertTree record =>
      refine lastExpression_counted fun before result after hdone => ?_
      cases hkey : before.keys.get? record.key <;>
        · simp only [hkey, Except.ok.injEq, Prod.mk.injEq] at hdone
          obtain ⟨-, rfl⟩ := hdone
          rfl
  | insertBranch _ _ | bindVariable _ _ | bindConditional _ _ =>
      refine lastExpression_counted fun before result after hdone => ?_
      obtain ⟨-, rfl⟩ := required_eq_ok hdone
      rfl

/-- The last id of the store is the highest one that was given out. -/
theorem foldl_max_issued (store : TreeStore) (writes : List Write) :
    (store.issued writes).foldl max store.lastExpression =
      (store.afterWrites writes).lastExpression := by
  induction writes generalizing store with
  | nil => rfl
  | cons write rest ih =>
      rw [issued, List.foldl_append, ← lastExpression_afterWrite, ih]
      rfl

/-- In a store that clients have written to, a refused write changes at most the count of
writes, a spent budget freezes the store, and an accepted expression gets the next id after all
that were given out. -/
theorem refused_writes_leave_store (budget : Option Nat) (writes : List Write) :
    let store := (empty budget).afterWrites writes
    (∀ write error, store.refusal? write = some error → store.Refused write error) ∧
      (∀ limit, budget = some limit →
        store.writes ≤ limit ∧ (store.writes = limit → store.Frozen limit)) ∧
      ∀ tree expression id, (store.insertExpression tree expression).1 = .ok id →
        id = ((empty budget).issued writes).foldl max 0 + 1 := by
  intro store
  have hstore : store.Integrity := (Integrity.empty budget).afterWrites writes
  refine ⟨fun write error => refused_of_refusal? hstore, fun limit hbudget => ?_,
    fun tree expression id hinserted => ?_⟩
  · subst hbudget
    have hlimit : store.budget = some limit := budget_afterWrites _ writes
    have hallows : store.Allows (limit - store.writes) := allows_afterWrites limit writes
    rw [Allows, hlimit, Option.some.injEq] at hallows
    refine ⟨by omega, fun hspent => hspent ▸ frozen_of_spent hstore ?_⟩
    rw [isSpent, hlimit]
    exact decide_eq_true hspent.ge
  · have hlast : ((empty budget).issued writes).foldl max 0 = store.lastExpression :=
      foldl_max_issued (empty budget) writes
    rcases hdone : store.insertExpression tree expression with ⟨answer, after⟩
    rw [hdone] at hinserted
    cases hinserted
    rw [hlast]
    exact (insertExpression_eq_ok hdone).1

/-- A binding that is refused takes its part of the budget. -/
example : ((empty (some 2)).afterWrites [.bindVariable "rate" 42,
      .upsertTree ⟨"estimate", .ifTree, .numeric⟩]).refusal? (.bindVariable "rate" 1) =
    some (.rejected (.budgetSpent 2)) := by
  rfl

end TreeStore

end DecisionCanvas
