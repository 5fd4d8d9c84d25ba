import DecisionCanvas.Proofs.Store.Integrity

/-!
# The budget of writes

A write that the budget allows is counted, whether or not it is then refused for its
references.  The budget itself never changes, so it is clear at any time how many writes
are left, and once none is, the store stays as it is.
-/

namespace DecisionCanvas

namespace TreeStore

/-- Whether so many more writes are within the budget. -/
def HasRoom (store : TreeStore) (count : Nat) : Prop :=
  ∀ limit, store.budget = some limit → store.writes + count ≤ limit

/-- Whether the budget ends after exactly so many more writes. -/
def Allows (store : TreeStore) (room : Nat) : Prop :=
  store.budget = some (store.writes + room)

theorem hasRoom_of_unlimited {store : TreeStore} (hunlimited : store.budget = none)
    (count : Nat) : store.HasRoom count := by
  intro limit hlimit
  rw [hunlimited] at hlimit
  exact absurd hlimit (by simp)

theorem HasRoom.mono {store : TreeStore} {count fewer : Nat} (hroom : store.HasRoom count)
    (hfewer : fewer ≤ count) : store.HasRoom fewer := by
  intro limit hlimit
  have := hroom limit hlimit
  omega

theorem HasRoom.not_spent {store : TreeStore} {count : Nat} (hroom : store.HasRoom (count + 1)) :
    store.isSpent = false := by
  unfold isSpent
  cases hbudget : store.budget with
  | none => rfl
  | some limit =>
      have := hroom limit hbudget
      simp only [decide_eq_false_iff_not]
      omega

theorem Allows.hasRoom {store : TreeStore} {room count : Nat} (hallows : store.Allows room)
    (hcount : count ≤ room) : store.HasRoom count := by
  intro limit hlimit
  rw [hallows, Option.some.injEq] at hlimit
  omega

theorem Allows.spent {store : TreeStore} (hallows : store.Allows 0) : store.isSpent = true := by
  have hbudget : store.budget = some store.writes := hallows
  rw [isSpent, hbudget]
  exact decide_eq_true (Nat.le_refl _)

/-! ## What a write counts -/

/-- Every write is a counted attempt that does not count anything itself. -/
theorem afterWrite_eq_counted (store : TreeStore) (write : Write) :
    ∃ (Result : Type) (attempt : TreeStore → Except Rejection (Result × TreeStore)),
      store.afterWrite write = (store.counted attempt).2 ∧
      ∀ before result after, attempt before = .ok (result, after) →
        after.budget = before.budget ∧ after.writes = before.writes := by
  cases write with
  | upsertTree record =>
      refine ⟨_, _, rfl, ?_⟩
      intro before result after hdone
      cases hkey : before.keys.get? record.key with
      | none =>
          simp only [hkey, Except.ok.injEq, Prod.mk.injEq] at hdone
          rw [← hdone.2]
          exact ⟨rfl, rfl⟩
      | some id =>
          simp only [hkey, Except.ok.injEq, Prod.mk.injEq] at hdone
          rw [← hdone.2]
          exact ⟨rfl, rfl⟩
  | insertExpression _ _ | insertBranch _ _ | bindVariable _ _ | bindConditional _ _ =>
      refine ⟨_, _, rfl, ?_⟩
      intro before result after hdone
      obtain ⟨-, rfl⟩ := required_eq_ok hdone
      exact ⟨rfl, rfl⟩

/-- No write changes the budget. -/
theorem budget_afterWrite (store : TreeStore) (write : Write) :
    (store.afterWrite write).budget = store.budget := by
  obtain ⟨Result, attempt, hwrite, hattempt⟩ := store.afterWrite_eq_counted write
  rw [hwrite]
  rcases counted_cases store attempt with hsame | hcounted | ⟨result, hdone⟩
  · rw [hsame]
  · rw [hcounted]
    rfl
  · exact (hattempt store.tick result _ hdone).1

theorem budget_afterWrites (store : TreeStore) (writes : List Write) :
    (store.afterWrites writes).budget = store.budget := by
  induction writes generalizing store with
  | nil => rfl
  | cons write rest ih => exact (ih (store.afterWrite write)).trans (store.budget_afterWrite write)

theorem afterWrites_append (store : TreeStore) (first second : List Write) :
    store.afterWrites (first ++ second) = (store.afterWrites first).afterWrites second :=
  List.foldl_append

/-- Counting never goes beyond the budget. -/
theorem HasRoom.afterWrite {store : TreeStore} (hroom : store.HasRoom 0) (write : Write) :
    (store.afterWrite write).HasRoom 0 := by
  obtain ⟨Result, attempt, hwrite, hattempt⟩ := store.afterWrite_eq_counted write
  rw [hwrite]
  cases hspent : store.isSpent with
  | true =>
      rw [counted_spent hspent]
      exact hroom
  | false =>
      have hopen : store.tick.HasRoom 0 := by
        intro limit hlimit
        have hbudget : store.budget = some limit := hlimit
        simp only [isSpent, hbudget, decide_eq_false_iff_not] at hspent
        change store.writes + 1 + 0 ≤ limit
        omega
      cases hdone : attempt store.tick with
      | error reason =>
          rw [counted_error hspent hdone]
          exact hopen
      | ok done =>
          obtain ⟨hbudget, hwrites⟩ := hattempt store.tick done.1 done.2 hdone
          rw [counted_ok hspent done.1 done.2 hdone]
          intro limit hlimit
          rw [hwrites]
          exact hopen limit (hbudget.symm.trans hlimit)

theorem HasRoom.afterWrites {store : TreeStore} (hroom : store.HasRoom 0)
    (writes : List Write) : (store.afterWrites writes).HasRoom 0 := by
  induction writes generalizing store with
  | nil => exact hroom
  | cons write rest ih => exact ih (hroom.afterWrite write)

/-- A store that was opened with a budget allows what is left of it. -/
theorem allows_afterWrites (limit : Nat) (writes : List Write) :
    let store := (empty (some limit)).afterWrites writes
    store.Allows (limit - store.writes) := by
  intro store
  have hbudget : store.budget = some limit := budget_afterWrites _ writes
  have hempty : (empty (some limit)).HasRoom 0 := by
    intro other _
    exact Nat.zero_le other
  have hle := hempty.afterWrites writes limit hbudget
  change store.writes + 0 ≤ limit at hle
  rw [Allows, hbudget]
  congr 1
  omega

end TreeStore

end DecisionCanvas
