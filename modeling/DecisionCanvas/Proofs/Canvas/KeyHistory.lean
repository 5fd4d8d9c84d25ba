import DecisionCanvas.Canvas.Collection
import DecisionCanvas.Proofs.Canvas.WellFormed
import DecisionCanvas.Proofs.Directory
import Mathlib.Data.List.Induction
import Mathlib.Data.Set.Card

/-!
# The histories of keys

A collection is called under many keys in turn.  What it holds under one of them is told by the
calls under that key alone, and of these by the ones since the graph there was last closed or
replaced: they make a history of its own, as if no other key were ever used.
-/

namespace DecisionCanvas

variable {R : Type}

/-- The graph after actions none of which may be refused, each with the id that it gives. -/
def Graph.dispatchAll [Scalar R] (graph : Graph R) (actions : List (String × Action R)) :
    Except GraphError (Graph R) :=
  actions.foldlM (fun graph action => graph.dispatch action.1 action.2) graph

theorem Graph.dispatchAll_append [Scalar R] {graph next : Graph R}
    {first : List (String × Action R)} (hfirst : graph.dispatchAll first = .ok next)
    (rest : List (String × Action R)) :
    graph.dispatchAll (first ++ rest) = next.dispatchAll rest := by
  rw [dispatchAll, List.foldlM_append, ← dispatchAll, hfirst]
  rfl

/-- The last element of a kind, if there is one. -/
theorem exists_last_or {Element : Type} (kind : Element → Bool) (elements : List Element) :
    (∀ element ∈ elements, kind element = false) ∨
      ∃ before last since, elements = before ++ last :: since ∧ kind last = true ∧
        ∀ element ∈ since, kind element = false := by
  induction elements with
  | nil => exact Or.inl fun element helement => absurd helement List.not_mem_nil
  | cons first rest ih =>
      obtain hnone | ⟨before, last, since, rfl, hlast, hsince⟩ := ih
      · cases hfirst : kind first with
        | false => exact Or.inl (List.forall_mem_cons.mpr ⟨hfirst, hnone⟩)
        | true => exact Or.inr ⟨[], first, rest, rfl, hfirst, hnone⟩
      · exact Or.inr ⟨first :: before, last, since, rfl, hlast, hsince⟩

namespace GraphCollection

/-- What a collection can be called for. -/
inductive Call (R : Type) where
  | openGraph (key : String)
  | insert (key : String) (graph : Graph R)
  | dispatch (key newId : String) (action : Action R)
  | close (key : String)
  | clear

namespace Call

/-- Whether nothing is left under a key after a call. -/
def drops (key : String) : Call R → Bool
  | .close other => other == key
  | .clear => true
  | _ => false

/-- Whether a call files a graph of its own under a key. -/
def inserts (key : String) : Call R → Bool
  | .insert other _ => other == key
  | _ => false

/-- Whether a graph is under a key after a call because of it. -/
def accesses (key : String) : Call R → Bool
  | .openGraph other | .insert other _ | .dispatch other _ _ => other == key
  | _ => false

/-- Whether what was under a key before a call does not matter after it. -/
def resets (key : String) (call : Call R) : Bool :=
  call.drops key || call.inserts key

/-- Whether a call is about a key. -/
def concerns (key : String) (call : Call R) : Bool :=
  call.drops key || call.accesses key

variable {key : String} {call : Call R}

theorem not_drops_of_not_resets (hkept : call.resets key = false) : call.drops key = false :=
  (Bool.or_eq_false_iff.mp hkept).1

theorem exists_of_inserts (hinserts : call.inserts key = true) :
    ∃ graph, call = .insert key graph := by
  cases call with
  | insert other graph => exact ⟨graph, by rw [beq_iff_eq.mp hinserts]⟩
  | openGraph _ | dispatch _ _ _ | close _ | clear => exact absurd hinserts (by simp [inserts])

end Call

variable [Scalar R]

def after (collection : GraphCollection R) : Call R → GraphCollection R
  | .openGraph key => (collection.openGraph key).2
  | .insert key graph => collection.insert key graph
  | .dispatch key newId action => (collection.dispatch key newId action).2
  | .close key => (collection.close key).2
  | .clear => collection.clear

def afterCalls (collection : GraphCollection R) (calls : List (Call R)) : GraphCollection R :=
  calls.foldl after collection

theorem afterCalls_append (collection : GraphCollection R) (calls since : List (Call R)) :
    collection.afterCalls (calls ++ since) = (collection.afterCalls calls).afterCalls since :=
  List.foldl_append

/-- The action that a call gets accepted on the graph under a key, with the id that it
gives. -/
def accepted (collection : GraphCollection R) (key : String) : Call R → List (String × Action R)
  | .dispatch other newId action =>
    match (collection.dispatch other newId action).1 with
    | .ok _ => if other = key then [(newId, action)] else []
    | .error _ => []
  | _ => []

/-- The actions that calls get accepted on the graph under a key, the first one first. -/
def acceptedIn (key : String) : GraphCollection R → List (Call R) → List (String × Action R)
  | _, [] => []
  | collection, call :: rest =>
    collection.accepted key call ++ acceptedIn key (collection.after call) rest

/-! ## One call -/

section OneCall

variable (collection : GraphCollection R) (key : String)

omit [Scalar R] in
theorem openGraph_fst : (collection.openGraph key).1 = (collection.get? key).getD .empty := by
  rw [openGraph]
  cases collection.get? key <;> rfl

omit [Scalar R] in
@[simp] theorem get?_insert (other : String) (graph : Graph R) :
    (collection.insert other graph).get? key =
      if key = other then some graph else collection.get? key :=
  Directory.get?_insert collection.graphs other key graph

omit [Scalar R] in
@[simp] theorem get?_openGraph (other : String) : (collection.openGraph other).2.get? key =
    if key = other then some ((collection.get? key).getD .empty) else collection.get? key := by
  cases hheld : collection.get? other with
  | none =>
      have hopened : (collection.openGraph other).2 = collection.insert other .empty := by
        rw [openGraph, hheld]
        rfl
      rw [hopened, get?_insert]
      split
      · rename_i hsame
        rw [hsame, hheld, Option.getD_none]
      · rfl
  | some graph =>
      have hkept : (collection.openGraph other).2 = collection := by
        rw [openGraph, hheld]
      rw [hkept]
      split
      · rename_i hsame
        rw [hsame, hheld, Option.getD_some]
      · rfl

/-- A graph answers an action as if it were alone. -/
theorem dispatch_fst (newId : String) (action : Action R) :
    (collection.dispatch key newId action).1 =
      ((collection.get? key).getD .empty).dispatch newId action := by
  rw [dispatch, ← openGraph_fst]
  cases hanswer : (collection.openGraph key).1.dispatch newId action <;> simp only [hanswer]

@[simp] theorem get?_dispatch (other newId : String) (action : Action R) :
    (collection.dispatch other newId action).2.get? key =
      if key = other then some (((collection.get? key).getD .empty).after newId action)
      else collection.get? key := by
  have hgraph := openGraph_fst collection other
  cases hanswer : ((collection.get? other).getD .empty).dispatch newId action with
  | error error =>
      have hrefused : (collection.dispatch other newId action).2 =
          (collection.openGraph other).2 := by
        simp only [dispatch, hgraph, hanswer]
      rw [hrefused, get?_openGraph]
      split
      · rename_i hsame
        rw [Graph.after, hsame, hanswer]
      · rfl
  | ok next =>
      have haccepted : (collection.dispatch other newId action).2 =
          (collection.openGraph other).2.insert other next := by
        simp only [dispatch, hgraph, hanswer]
      rw [haccepted, get?_insert, get?_openGraph]
      split
      · rename_i hsame
        rw [Graph.after, hsame, hanswer]
      · rfl

end OneCall

/-! ## One key -/

namespace Call

/-- What a call makes of what is under a key. -/
def actOn (key : String) (held : Option (Graph R)) : Call R → Option (Graph R)
  | .openGraph other => if key = other then some (held.getD .empty) else held
  | .insert other graph => if key = other then some graph else held
  | .dispatch other newId action =>
    if key = other then some ((held.getD .empty).after newId action) else held
  | .close other => if key = other then none else held
  | .clear => none

variable {key : String} {call : Call R}

theorem actOn_of_drops (hdrops : call.drops key = true) (held : Option (Graph R)) :
    call.actOn key held = none := by
  cases call with
  | close other => exact if_pos (beq_iff_eq.mp hdrops).symm
  | clear => rfl
  | openGraph _ | insert _ _ | dispatch _ _ _ => exact absurd hdrops (by simp [drops])

theorem actOn_of_not_concerns (hother : call.concerns key = false) (held : Option (Graph R)) :
    call.actOn key held = held := by
  cases call with
  | openGraph other | insert other _ | dispatch other _ _ | close other =>
      have hne : key ≠ other := by
        rintro rfl
        simp [concerns, drops, accesses] at hother
      exact if_neg hne
  | clear => exact absurd hother (by simp [concerns, drops])

theorem isSome_actOn_of_accesses (haccess : call.accesses key = true)
    (held : Option (Graph R)) : (call.actOn key held).isSome = true := by
  cases call with
  | openGraph other | insert other _ | dispatch other _ _ =>
      rw [actOn, if_pos (beq_iff_eq.mp haccess).symm]
      rfl
  | close _ | clear => exact absurd haccess (by simp [accesses])

theorem isSome_actOn (hkept : call.drops key = false) {held : Option (Graph R)}
    (hheld : held.isSome = true) : (call.actOn key held).isSome = true := by
  by_cases haccess : call.accesses key = true
  · exact isSome_actOn_of_accesses haccess held
  · rw [actOn_of_not_concerns (by simp [concerns, hkept, haccess])]
    exact hheld

end Call

section OneKey

variable (collection : GraphCollection R) (key : String)

theorem get?_after (call : Call R) :
    (collection.after call).get? key = call.actOn key (collection.get? key) := by
  cases call with
  | openGraph other => exact get?_openGraph collection key other
  | insert other graph => exact get?_insert collection key other graph
  | dispatch other newId action => exact get?_dispatch collection key other newId action
  | close other => exact Directory.get?_erase collection.graphs other key
  | clear => rfl

/-- What is under a key is made by what calls make of it one after the other. -/
theorem get?_afterCalls (calls : List (Call R)) : (collection.afterCalls calls).get? key =
    calls.foldl (fun held call => call.actOn key held) (collection.get? key) := by
  induction calls generalizing collection with
  | nil => rfl
  | cons call rest ih =>
      rw [List.foldl_cons, ← get?_after]
      exact ih (collection.after call)

/-- Calls about other keys do not matter. -/
theorem get?_afterCalls_filter (calls : List (Call R)) :
    (collection.afterCalls (calls.filter (Call.concerns key))).get? key =
      (collection.afterCalls calls).get? key := by
  rw [get?_afterCalls, get?_afterCalls, List.foldl_filter]
  congr 1
  funext held call
  split
  · rfl
  · rename_i hother
    rw [Bool.not_eq_true] at hother
    rw [Call.actOn_of_not_concerns hother]

end OneKey

/-! ## The last reset -/

variable (collection : GraphCollection R) {key : String} {call : Call R} {calls : List (Call R)}

theorem accepted_of_not_accesses (hother : call.accesses key = false) :
    collection.accepted key call = [] := by
  cases call with
  | dispatch other newId action =>
      have hne : other ≠ key := beq_eq_false_iff_ne.mp hother
      rw [accepted, if_neg hne]
      split <;> rfl
  | openGraph _ | insert _ _ | close _ | clear => rfl

/-- A call that uses the graph under a key carries out there what it gets accepted. -/
theorem exists_after_of_accesses (haccess : call.accesses key = true)
    (hkept : call.resets key = false) :
    ∃ next, (collection.after call).get? key = some next ∧
      ((collection.get? key).getD .empty).dispatchAll (collection.accepted key call) =
        .ok next := by
  rw [get?_after]
  cases call with
  | openGraph other => exact ⟨_, if_pos (beq_iff_eq.mp haccess).symm, rfl⟩
  | insert other graph =>
      have hother : (other == key) = false := hkept
      exact absurd (haccess.symm.trans hother) (by simp)
  | dispatch other newId action =>
      have hsame : key = other := (beq_iff_eq.mp haccess).symm
      refine ⟨_, if_pos hsame, ?_⟩
      rw [accepted, dispatch_fst, ← hsame, Graph.after]
      cases hanswer : ((collection.get? key).getD .empty).dispatch newId action with
      | error error => rfl
      | ok next => simp [Graph.dispatchAll, hanswer]
  | close _ | clear => exact absurd haccess (by simp [Call.accesses])

/-- As long as nothing resets a key, the graph there carries out what the calls get
accepted. -/
theorem exists_afterCalls (hkept : ∀ call ∈ calls, call.resets key = false)
    (hpresent : (collection.get? key).isSome = true ∨ ∃ call ∈ calls, call.accesses key = true) :
    ∃ state, (collection.afterCalls calls).get? key = some state ∧
      ((collection.get? key).getD .empty).dispatchAll (acceptedIn key collection calls) =
        .ok state := by
  induction calls generalizing collection with
  | nil =>
      obtain hheld | ⟨call, hcall, -⟩ := hpresent
      · obtain ⟨graph, hgraph⟩ := Option.isSome_iff_exists.mp hheld
        refine ⟨graph, hgraph, ?_⟩
        rw [hgraph]
        rfl
      · exact absurd hcall List.not_mem_nil
  | cons call rest ih =>
      obtain ⟨hfirst, hrest⟩ := List.forall_mem_cons.mp hkept
      by_cases haccess : call.accesses key = true
      · obtain ⟨next, hnext, hdone⟩ := exists_after_of_accesses collection haccess hfirst
        obtain ⟨state, hstate, hlater⟩ := ih (collection.after call) hrest
          (Or.inl (by rw [hnext]; rfl))
        rw [hnext] at hlater
        refine ⟨state, hstate, ?_⟩
        rw [acceptedIn, Graph.dispatchAll_append hdone]
        exact hlater
      · rw [Bool.not_eq_true] at haccess
        have hother : call.concerns key = false := by
          rw [Call.concerns, Call.not_drops_of_not_resets hfirst, haccess]
          rfl
        have hheld : (collection.after call).get? key = collection.get? key := by
          rw [get?_after, Call.actOn_of_not_concerns hother]
        obtain ⟨state, hstate, hlater⟩ := ih (collection.after call) hrest (by
          rw [hheld]
          simpa [haccess] using hpresent)
        rw [hheld] at hlater
        refine ⟨state, hstate, ?_⟩
        rw [acceptedIn, accepted_of_not_accesses collection haccess]
        exact hlater

/-- Whether calls say that there is a graph under a key: it was used there, and not dropped
since. -/
def Accessed (calls : List (Call R)) (key : String) : Prop :=
  ∃ before call since, calls = before ++ call :: since ∧ call.accesses key = true ∧
    ∀ later ∈ since, later.drops key = false

/-- Whether calls on the empty collection say that a graph is under a key.  It is the graph last
inserted there, or the empty one if the key was dropped or new when it was opened, after all
actions that were accepted since. -/
inductive Describes (calls : List (Call R)) (key : String) (state : Graph R) : Prop
  | inserted (before since : List (Call R)) (graph : Graph R) :
      calls = before ++ .insert key graph :: since →
      (∀ call ∈ since, call.resets key = false) →
      graph.dispatchAll (acceptedIn key (empty.afterCalls (before ++ [.insert key graph])) since) =
        .ok state →
      Describes calls key state
  | opened (before since : List (Call R)) :
      calls = before ++ since →
      (∀ last ∈ before.getLast?, last.drops key = true) →
      (∀ call ∈ since, call.resets key = false) →
      (∃ call ∈ since, call.accesses key = true) →
      Graph.empty.dispatchAll (acceptedIn key (empty.afterCalls before) since) = .ok state →
      Describes calls key state

theorem get?_afterCalls_concat (calls : List (Call R)) (call : Call R) :
    (empty.afterCalls (calls ++ [call])).get? key =
      call.actOn key ((empty.afterCalls calls).get? key) := by
  rw [afterCalls_append]
  exact get?_after _ key call

/-- Nothing is under a key that has not been used, or was last dropped. -/
theorem get?_of_dropped {before : List (Call R)}
    (hdropped : ∀ last ∈ before.getLast?, last.drops key = true) :
    (empty.afterCalls before).get? key = none := by
  induction before using List.reverseRecOn with
  | nil => rfl
  | append_singleton before last _ =>
      rw [get?_afterCalls_concat]
      exact Call.actOn_of_drops (hdropped last (by simp)) _

/-- What is inserted carries out what is accepted since. -/
theorem exists_afterCalls_insert (before : List (Call R)) (graph : Graph R)
    {since : List (Call R)} (hkept : ∀ call ∈ since, call.resets key = false) :
    ∃ state, (empty.afterCalls (before ++ .insert key graph :: since)).get? key = some state ∧
      graph.dispatchAll (acceptedIn key (empty.afterCalls (before ++ [.insert key graph])) since) =
        .ok state := by
  have hheld : (empty.afterCalls (before ++ [.insert key graph])).get? key = some graph := by
    rw [get?_afterCalls_concat]
    exact if_pos rfl
  obtain ⟨state, hstate, hdone⟩ := exists_afterCalls _ hkept (Or.inl (by rw [hheld]; rfl))
  rw [hheld] at hdone
  rw [List.append_cons, afterCalls_append]
  exact ⟨state, hstate, hdone⟩

/-- What is used where nothing was carries out what is accepted since on the empty graph. -/
theorem exists_afterCalls_opened {before since : List (Call R)}
    (hnone : (empty.afterCalls before).get? key = none)
    (hkept : ∀ call ∈ since, call.resets key = false)
    (haccess : ∃ call ∈ since, call.accesses key = true) :
    ∃ state, (empty.afterCalls (before ++ since)).get? key = some state ∧
      Graph.empty.dispatchAll (acceptedIn key (empty.afterCalls before) since) = .ok state := by
  obtain ⟨state, hstate, hdone⟩ := exists_afterCalls _ hkept (Or.inr haccess)
  rw [hnone] at hdone
  rw [afterCalls_append]
  exact ⟨state, hstate, hdone⟩

theorem exists_accesses_of_get? {before since : List (Call R)} {state : Graph R}
    (hnone : (empty.afterCalls before).get? key = none)
    (hkept : ∀ call ∈ since, call.resets key = false)
    (hstate : (empty.afterCalls (before ++ since)).get? key = some state) :
    ∃ call ∈ since, call.accesses key = true := by
  by_contra hunused
  have hothers : since.filter (Call.concerns key) = [] := by
    refine List.filter_eq_nil_iff.mpr fun call hcall hconcerns => hunused ⟨call, hcall, ?_⟩
    rwa [Call.concerns, Call.not_drops_of_not_resets (hkept call hcall), Bool.false_or]
      at hconcerns
  rw [afterCalls_append, ← get?_afterCalls_filter, hothers] at hstate
  exact absurd (hnone.symm.trans hstate) (by simp)

/-- What is under a key is what the calls say. -/
theorem get?_afterCalls_eq_some_iff {state : Graph R} :
    (empty.afterCalls calls).get? key = some state ↔ Describes calls key state := by
  constructor
  · intro hstate
    have hopened {before since : List (Call R)} (hcalls : calls = before ++ since)
        (hdropped : ∀ last ∈ before.getLast?, last.drops key = true)
        (hkept : ∀ call ∈ since, call.resets key = false) : Describes calls key state := by
      have hnone := get?_of_dropped hdropped
      rw [hcalls] at hstate
      have haccess := exists_accesses_of_get? hnone hkept hstate
      obtain ⟨reached, hreached, hdone⟩ := exists_afterCalls_opened hnone hkept haccess
      rw [hreached, Option.some.injEq] at hstate
      exact .opened before since hcalls hdropped hkept haccess (hstate ▸ hdone)
    obtain hkept | ⟨before, last, since, hcalls, hlast, hkept⟩ :=
      exists_last_or (Call.resets key) calls
    · exact hopened (List.nil_append calls).symm (by simp) hkept
    · obtain hdrops | hinserts := Bool.or_eq_true_iff.mp hlast
      · exact hopened (hcalls.trans (List.append_cons before last since)) (by simpa using hdrops)
          hkept
      · obtain ⟨graph, rfl⟩ := Call.exists_of_inserts hinserts
        obtain ⟨reached, hreached, hdone⟩ := exists_afterCalls_insert before graph hkept
        rw [hcalls, hreached, Option.some.injEq] at hstate
        exact .inserted before since graph hcalls hkept (hstate ▸ hdone)
  · rintro (⟨before, since, graph, rfl, hkept, hstate⟩ |
      ⟨before, since, rfl, hdropped, hkept, haccess, hstate⟩)
    · obtain ⟨reached, hreached, hdone⟩ := exists_afterCalls_insert before graph hkept
      rw [hstate, Except.ok.injEq] at hdone
      rw [hreached, hdone]
    · obtain ⟨reached, hreached, hdone⟩ :=
        exists_afterCalls_opened (get?_of_dropped hdropped) hkept haccess
      rw [hstate, Except.ok.injEq] at hdone
      rw [hreached, hdone]

/-! ## Presence -/

theorem isSome_afterCalls (hkept : ∀ call ∈ calls, call.drops key = false)
    (hpresent : (collection.get? key).isSome = true) :
    ((collection.afterCalls calls).get? key).isSome = true := by
  induction calls generalizing collection with
  | nil => exact hpresent
  | cons call rest ih =>
      obtain ⟨hfirst, hrest⟩ := List.forall_mem_cons.mp hkept
      refine ih (collection.after call) hrest ?_
      rw [get?_after]
      exact Call.isSome_actOn hfirst hpresent

theorem accessed_of_describes {state : Graph R} (hdescribes : Describes calls key state) :
    Accessed calls key := by
  obtain ⟨before, since, graph, rfl, hkept, -⟩ | ⟨before, since, rfl, -, hkept, haccess, -⟩ :=
    hdescribes
  · exact ⟨before, .insert key graph, since, rfl, beq_self_eq_true key,
      fun later hlater => Call.not_drops_of_not_resets (hkept later hlater)⟩
  · obtain ⟨call, hcall, haccess⟩ := haccess
    obtain ⟨earlier, since, rfl⟩ := List.append_of_mem hcall
    refine ⟨before ++ earlier, call, since, by simp, haccess, fun later hlater => ?_⟩
    exact Call.not_drops_of_not_resets (hkept later (by simp [hlater]))

theorem isSome_get?_iff :
    ((empty.afterCalls calls).get? key).isSome = true ↔ Accessed calls key := by
  constructor
  · intro hpresent
    obtain ⟨state, hstate⟩ := Option.isSome_iff_exists.mp hpresent
    exact accessed_of_describes (get?_afterCalls_eq_some_iff.mp hstate)
  · rintro ⟨before, call, since, rfl, haccess, hkept⟩
    rw [List.append_cons, afterCalls_append]
    refine isSome_afterCalls _ hkept ?_
    rw [get?_afterCalls_concat]
    exact Call.isSome_actOn_of_accesses haccess _

omit [Scalar R] in
/-- The size is the number of keys that something is under. -/
theorem encard_present :
    {key | (collection.get? key).isSome = true}.encard = collection.size := by
  have hkeys : {key | (collection.get? key).isSome = true} =
      (collection.keys.toFinset : Set String) := by
    ext key
    rw [Finset.mem_coe, List.mem_toFinset]
    exact Directory.mem_keys_iff.symm
  have hcount : collection.keys.toFinset.card = collection.size :=
    (List.toFinset_card_of_nodup collection.graphs.keys_nodup).trans (List.length_map _)
  rw [hkeys, Set.encard_coe_eq_coe_finsetCard, hcount]

/-! ## All keys -/

/-- Whether a collection holds under each key just what calls on the empty collection say, and
answers an action there as the graph under the key does alone. -/
structure HoldsHistories (calls : List (Call R)) (collection : GraphCollection R) : Prop where
  present_iff : ∀ key, (collection.get? key).isSome = true ↔ Accessed calls key
  graph_iff : ∀ key state, collection.get? key = some state ↔ Describes calls key state
  close_iff : ∀ key state, (collection.close key).1 = some state ↔ Describes calls key state
  answer_eq : ∀ key newId action, (collection.dispatch key newId action).1 =
    ((collection.get? key).getD .empty).dispatch newId action
  independent : ∀ key, (empty.afterCalls (calls.filter (Call.concerns key))).get? key =
    collection.get? key
  size_eq : {key | Accessed calls key}.encard = collection.size

/-- Whatever a new collection is called for, it holds the history of each key by itself: a graph
from its first use until it is dropped, which has carried out what was accepted since it was
inserted or opened, whatever happened under other keys.  At each point of the history, an action
is accepted exactly if the graph that is under the key by then accepts it. -/
theorem holdsHistories_afterCalls (calls : List (Call R)) :
    HoldsHistories calls (empty.afterCalls calls) where
  present_iff key := isSome_get?_iff
  graph_iff key state := get?_afterCalls_eq_some_iff
  close_iff key state := get?_afterCalls_eq_some_iff
  answer_eq key newId action := dispatch_fst _ key newId action
  independent key := get?_afterCalls_filter empty key calls
  size_eq := by
    simp only [← isSome_get?_iff]
    exact encard_present _

/-- An action opens a graph even if it is refused; a graph that is closed is not there. -/
example : (empty.afterCalls [.dispatch "a" "" (.reorderLayer "root" []), .openGraph "b",
    .close "b"] : GraphCollection Float).keys = ["a"] := by
  decide +kernel

end GraphCollection

end DecisionCanvas
