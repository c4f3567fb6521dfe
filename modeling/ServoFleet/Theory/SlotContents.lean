import ServoFleet.Theory.SlotLedger

/-!
What the items of a ledger hold. A committed item is sealed until the thread that
has popped it lets it go: if nobody writes to a sealed item, every packet that is
popped holds what it was committed with.
-/

namespace SlotLedger

variable {Item Buffer Thread Size Content : Type}

/-- The commit that a thread works on, by its index. -/
@[grind]
def Hand.carries : Hand Item Size → Option (Item × Nat)
  | .popped item index => some (item, index)
  | .taken item _ index => some (item, index)
  | _ => none

theorem Hand.item_of_carries {hand : Hand Item Size} {item : Item} {index : Nat}
    (h : hand.carries = some (item, index)) : hand.item = some item := by
  cases hand <;> cases h <;> rfl

/-- What a packet of a given size would hold now, and what those committed held. -/
structure Cargo (Item Size Content : Type) where
  contents : Item × Size → Content
  payloads : List Content

/-- The item is pending, or a thread works on its commit. -/
def Ledger.Sealed (ledger : Ledger Item Buffer Thread Size) (item : Item) : Prop :=
  item ∈ ledger.pending ∨
    ∃ thread index, (ledger.hands thread).carries = some (item, index)

/-- Every sealed item holds what it was committed with. -/
structure Cargo.Intact (cargo : Cargo Item Size Content)
    (ledger : Ledger Item Buffer Thread Size) : Prop where
  length : cargo.payloads.length = ledger.commits.length
  pending : ∀ i packet, ledger.pops.length ≤ i → ledger.commits[i]? = some packet →
    cargo.payloads[i]? = some (cargo.contents packet)
  carried : ∀ thread item index, (ledger.hands thread).carries = some (item, index) →
    index < ledger.pops.length ∧ ∀ size, ledger.commits[index]? = some (item, size) →
      cargo.payloads[index]? = some (cargo.contents (item, size))

section Step

variable [DecidableEq Item] [DecidableEq Buffer] [DecidableEq Thread]
  {valid : Item → Prop} {ledger after : Ledger Item Buffer Thread Size} {thread : Thread}
  {cargo next : Cargo Item Size Content}

theorem Ledger.Step.commits (hstep : Ledger.Step ledger thread after) :
    after.commits = ledger.commits ∨
      ∃ packet, after.commits = ledger.commits ++ [packet] := by
  cases hstep with
  | push held => exact .inr ⟨_, rfl⟩
  | _ => exact .inl rfl

theorem Ledger.Step.pops (hstep : Ledger.Step ledger thread after) :
    ledger.pops.length ≤ after.pops.length := by
  cases hstep with
  | pop pending empty => exact (List.prefix_append _ _).length_le
  | _ => exact Nat.le_refl _

/-- A thread works on a commit that it worked on before, or that it pops. -/
theorem Ledger.Step.carries (hstep : Ledger.Step ledger thread after) {other : Thread}
    {item : Item} {index : Nat} (h : (after.hands other).carries = some (item, index)) :
    (ledger.hands other).carries = some (item, index) ∨
      (index = ledger.pops.length ∧ after.pops.length = ledger.pops.length + 1 ∧
        after.commits = ledger.commits) := by
  by_cases hother : other = thread
  · subst hother
    cases hstep with
    | pop pending empty =>
        simp only [Function.update_self, Hand.carries, Option.some.injEq, Prod.mk.injEq] at h
        exact .inr ⟨h.2.symm, List.length_append, rfl⟩
    | read held size_eq =>
        simp only [Function.update_self] at h
        rw [held]
        exact .inl h
    | rest => exact .inl h
    | takeBuffer id free vacant => exact .inl h
    | giveBuffer id held => exact .inl h
    | shift id other held vacant => exact .inl h
    | erase id size held => exact .inl h
    | _ =>
        simp only [Function.update_self] at h
        cases h
  · rw [hstep.hands_other hother] at h
    exact .inl h

/-- A step that writes to no sealed item, and notes what a commit holds, leaves
every sealed item intact. -/
theorem Cargo.Intact.step (h : cargo.Intact ledger) (hinv : ledger.Invariant valid)
    (hstep : Ledger.Step ledger thread after)
    (hcontents : ∀ packet ∈ ledger.commits, ledger.Sealed packet.1 →
      next.contents packet = cargo.contents packet)
    (hpayloads : next.payloads =
      cargo.payloads ++ (after.commits.drop ledger.commits.length).map next.contents) :
    next.Intact after := by
  have hlength := h.length
  -- the payloads of earlier commits stay where they are
  have hkept : ∀ {i : Nat} {packet : Item × Size}, i < ledger.commits.length →
      ledger.Sealed packet.1 → packet ∈ ledger.commits →
      cargo.payloads[i]? = some (cargo.contents packet) →
      next.payloads[i]? = some (next.contents packet) := by
    intro i packet hi hsealed member hpayload
    rw [hpayloads, List.getElem?_append_left (by omega), hcontents packet member hsealed, hpayload]
  have hearlier : ∀ {i : Nat} {packet : Item × Size}, ledger.pops.length ≤ i →
      ledger.commits[i]? = some packet → next.payloads[i]? = some (next.contents packet) := by
    intro i packet hi hcommit
    have hlt := (List.getElem?_eq_some_iff.mp hcommit).1
    have hdrop : packet ∈ ledger.commits.drop ledger.pops.length := by
      refine List.mem_iff_getElem?.mpr ⟨i - ledger.pops.length, ?_⟩
      rw [List.getElem?_drop, Nat.add_sub_cancel' hi, hcommit]
    exact hkept hlt (.inl (hinv.mem_pending hdrop)) (List.mem_of_getElem? hcommit)
      (h.pending i packet hi hcommit)
  refine ⟨?_, fun i packet hi hcommit => ?_, fun other item index hcarries => ?_⟩
  · rw [hpayloads, List.length_append, List.length_map, List.length_drop, hlength]
    have hle := hstep.commits_prefix.length_le
    omega
  · have hpops := hstep.pops
    rcases hstep.commits with hsame | ⟨added, hadded⟩
    · rw [hsame] at hcommit
      exact hearlier (by omega) hcommit
    · rw [hadded] at hcommit
      rcases Nat.lt_or_ge i ledger.commits.length with hlt | hge
      · rw [List.getElem?_append_left hlt] at hcommit
        exact hearlier (by omega) hcommit
      · rw [List.getElem?_append_right hge, List.getElem?_singleton] at hcommit
        split_ifs at hcommit with hlast
        obtain rfl := Option.some.inj hcommit
        rw [hpayloads, hadded, List.drop_left, List.getElem?_append_right (by omega),
          List.getElem?_map, show i - cargo.payloads.length = 0 by omega]
        rfl
  · rcases hstep.carries hcarries with hbefore | ⟨rfl, hpopped, hsame⟩
    · obtain ⟨hlt, hpayload⟩ := h.carried other item index hbefore
      refine ⟨Nat.lt_of_lt_of_le hlt hstep.pops, fun size hcommit => ?_⟩
      have hle := hinv.pops_le
      have hold : ledger.commits[index]? = some (item, size) := by
        obtain ⟨more, hmore⟩ := hstep.commits_prefix
        rwa [← hmore, List.getElem?_append_left (by omega)] at hcommit
      exact hkept (by omega) (.inr ⟨other, index, hbefore⟩) (List.mem_of_getElem? hold)
        (hpayload size hold)
    · refine ⟨by omega, fun size hcommit => ?_⟩
      rw [hsame] at hcommit
      exact hearlier (Nat.le_refl _) hcommit

end Step

end SlotLedger
