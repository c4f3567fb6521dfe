import Mathlib.Logic.Function.Basic

/-!
An object made of parts, shared by counted references. One thread starts the parts one
after the other and publishes the object; threads take references while it is
published; the thread that lets go of the last reference stops the parts. While anyone
uses the object all of its parts are started, and an object nobody owns is stopped.
-/

namespace SharedObject

inductive Part where
  | created
  | started
  | stopped
  deriving DecidableEq, Repr

/-- What a thread does with the object. -/
inductive Role where
  | none
  | starts (next : Nat)
  | aborts (next : Nat)
  | publishes
  | uses
  | holds
  | destroys (next : Nat)
  deriving DecidableEq, Repr

/-- The thread owns a reference. -/
def Role.Owns : Role → Prop
  | .none => False
  | .destroys _ => False
  | _ => True

/-- The thread shares the object with others. -/
def Role.Shares : Role → Prop
  | .none => True
  | .uses => True
  | .holds => True
  | _ => False

/-- An object as `τ` threads see it. -/
structure Object (τ : Type) where
  parts : List Part
  published : Bool
  roles : τ → Role

namespace Object

variable {τ : Type}

def setPart (object : Object τ) (next : Nat) (part : Part) : Object τ :=
  { object with parts := object.parts.set next part }

/-- No reference to it exists. -/
def Absent (object : Object τ) : Prop :=
  object.published = false ∧ ∀ thread, object.roles thread = .none

/-- Nobody else knows of it. -/
def Alone (object : Object τ) (thread : τ) : Prop :=
  object.published = false ∧ ∀ other, other ≠ thread → object.roles other = .none

def All (object : Object τ) (part : Part) : Prop := ∀ p ∈ object.parts, p = part

/-- The parts before `next`. -/
def Before (object : Object τ) (next : Nat) (part : Part) : Prop :=
  ∀ (i : Nat) (p : Part), i < next → object.parts[i]? = some p → p = part

/-- What a thread with this role has done to the parts. -/
def Progress (object : Object τ) : Role → Prop
  | .starts next => object.Before next .started
  | .publishes => object.All .started
  | .aborts next => object.Before next .stopped
  | .destroys next => object.Before next .stopped
  | _ => True

/-- The stages of an object's life: one thread works on it, or it is shared and
started, or it is stopped and there are at most some references left. -/
inductive Lives (object : Object τ) : Prop where
  | busy (thread : τ) (role : ¬ (object.roles thread).Shares) (alone : object.Alone thread)
      (parts : object.Progress (object.roles thread))
  | shared (roles : ∀ thread, (object.roles thread).Shares)
      (owned : object.published = true ∨ ∃ thread, (object.roles thread).Owns)
      (parts : object.All .started)
  | stopped (unpublished : object.published = false)
      (roles : ∀ thread, object.roles thread = .none ∨ object.roles thread = .holds)
      (parts : object.All .stopped)

section Parts

variable {object : Object τ} {next : Nat} {part : Part}

theorem Before.all (h : object.Before next part) (last : object.parts.length ≤ next) :
    object.All part := by
  intro p member
  obtain ⟨i, hi⟩ := List.mem_iff_getElem?.mp member
  have hlt := (List.getElem?_eq_some_iff.mp hi).1
  exact h i p (by omega) hi

/-- The next part joins those before it. -/
theorem Before.succ (h : object.Before next part) :
    (object.setPart next part).Before (next + 1) part := by
  intro i p hi hpart
  simp only [setPart, List.getElem?_set] at hpart
  by_cases heq : next = i
  · rw [if_pos heq] at hpart
    by_cases hlt : next < object.parts.length
    · rw [if_pos hlt] at hpart
      exact (Option.some.inj hpart).symm
    · rw [if_neg hlt] at hpart
      cases hpart
  · rw [if_neg heq] at hpart
    exact h i p (by omega) hpart

theorem Before.zero : object.Before 0 part := fun i _ hi => absurd hi (Nat.not_lt_zero i)

end Parts

section Stages

variable {object : Object τ} {thread : τ}

/-- A thread that works on the object is the only one that knows of it. -/
theorem Lives.alone (h : object.Lives) (role : ¬ (object.roles thread).Shares) :
    object.Alone thread ∧ object.Progress (object.roles thread) := by
  cases h with
  | busy busy _ alone parts =>
      have hsame : thread = busy := by
        by_contra hne
        exact role (by rw [alone.2 thread hne]; trivial)
      subst hsame
      exact ⟨alone, parts⟩
  | shared roles _ _ => exact absurd (roles thread) role
  | stopped _ roles _ =>
      rcases roles thread with hnone | hholds
      · exact absurd (by rw [hnone]; trivial) role
      · exact absurd (by rw [hholds]; trivial) role

/-- What is published is shared. -/
theorem Lives.of_published (h : object.Lives) (published : object.published = true) :
    (∀ thread, (object.roles thread).Shares) ∧ object.All .started := by
  cases h with
  | busy _ _ alone _ => rw [alone.1] at published; cases published
  | shared roles _ parts => exact ⟨roles, parts⟩
  | stopped unpublished _ _ => rw [unpublished] at published; cases published

/-- What is used is shared. -/
theorem Lives.of_used (h : object.Lives) (role : object.roles thread = .uses) :
    (∀ thread, (object.roles thread).Shares) ∧ object.All .started := by
  cases h with
  | busy busy hbusy alone _ =>
      have hsame : thread = busy := by
        by_contra hne
        rw [alone.2 thread hne] at role
        cases role
      subst hsame
      rw [role] at hbusy
      exact absurd trivial hbusy
  | shared roles _ parts => exact ⟨roles, parts⟩
  | stopped _ roles _ =>
      rcases roles thread with h | h <;> rw [h] at role <;> cases role

/-- What is held is shared or stopped. -/
theorem Lives.of_held (h : object.Lives) (role : object.roles thread = .holds) :
    ((∀ thread, (object.roles thread).Shares) ∧ object.All .started) ∨
      object.published = false ∧
        (∀ thread, object.roles thread = .none ∨ object.roles thread = .holds) ∧
        object.All .stopped := by
  cases h with
  | busy busy hbusy alone _ =>
      have hsame : thread = busy := by
        by_contra hne
        rw [alone.2 thread hne] at role
        cases role
      subst hsame
      rw [role] at hbusy
      exact absurd trivial hbusy
  | shared roles _ parts => exact .inl ⟨roles, parts⟩
  | stopped unpublished roles parts => exact .inr ⟨unpublished, roles, parts⟩

/-- An object nobody owns or works on is stopped. -/
theorem Lives.of_absent (h : object.Lives) (absent : object.Absent) : object.All .stopped := by
  cases h with
  | busy thread role _ _ => exact absurd (by rw [absent.2 thread]; trivial) role
  | shared _ owned _ =>
      rcases owned with published | ⟨thread, howns⟩
      · rw [absent.1] at published
        cases published
      · rw [absent.2 thread] at howns
        cases howns
  | stopped _ _ parts => exact parts

end Stages

/-! ## Steps -/

variable [DecidableEq τ]

def become (object : Object τ) (thread : τ) (role : Role) : Object τ :=
  { object with roles := Function.update object.roles thread role }

/-- One step of one thread. -/
inductive Step (object : Object τ) : Object τ → Prop where
  | start {thread : τ} {next : Nat} (role : object.roles thread = .starts next) :
      Step object ((object.setPart next .started).become thread (.starts (next + 1)))
  | fail {thread : τ} {next : Nat} (role : object.roles thread = .starts next) :
      Step object (object.become thread (.aborts 0))
  | ready {thread : τ} {next : Nat} (role : object.roles thread = .starts next)
      (last : object.parts.length ≤ next) : Step object (object.become thread .publishes)
  | abort {thread : τ} {next : Nat} (role : object.roles thread = .aborts next) :
      Step object ((object.setPart next .stopped).become thread (.aborts (next + 1)))
  | aborted {thread : τ} {next : Nat} (role : object.roles thread = .aborts next)
      (last : object.parts.length ≤ next) : Step object (object.become thread .holds)
  | publish {thread : τ} (role : object.roles thread = .publishes) :
      Step object ({ object with published := true }.become thread .holds)
  | unpublish {thread : τ} (role : object.roles thread = .none)
      (published : object.published = true) :
      Step object ({ object with published := false }.become thread .holds)
  | use {thread : τ} (role : object.roles thread = .none) (published : object.published = true) :
      Step object (object.become thread .uses)
  | used {thread : τ} (role : object.roles thread = .uses) :
      Step object (object.become thread .holds)
  | drop {thread : τ} (role : object.roles thread = .holds)
      (owned : object.published = true ∨
        ∃ other, other ≠ thread ∧ (object.roles other).Owns) :
      Step object (object.become thread .none)
  | last {thread : τ} (role : object.roles thread = .holds)
      (unpublished : object.published = false)
      (unowned : ∀ other, other ≠ thread → ¬ (object.roles other).Owns) :
      Step object (object.become thread (.destroys 0))
  | destroy {thread : τ} {next : Nat} (role : object.roles thread = .destroys next) :
      Step object ((object.setPart next .stopped).become thread (.destroys (next + 1)))
  | destroyed {thread : τ} {next : Nat} (role : object.roles thread = .destroys next)
      (last : object.parts.length ≤ next) : Step object (object.become thread .none)

section Life

variable {object : Object τ} {thread : τ}

theorem become_same (role : Role) : (object.become thread role).roles thread = role :=
  Function.update_self ..

theorem become_other {other : τ} (h : other ≠ thread) (role : Role) :
    (object.become thread role).roles other = object.roles other :=
  Function.update_of_ne h ..

theorem Alone.become (alone : object.Alone thread) (role : Role) :
    (object.become thread role).Alone thread :=
  ⟨alone.1, fun other h => (become_other h role).trans (alone.2 other h)⟩

/-- The worker goes on. -/
theorem busy_become {role : Role} (alone : object.Alone thread) (busy : ¬ role.Shares)
    (parts : object.Progress role) : (object.become thread role).Lives := by
  refine .busy thread ?_ (alone.become role) ?_
  · rwa [become_same]
  · rw [become_same]
    cases role <;> exact parts

/-- The worker is done and the parts are stopped. -/
theorem stopped_become {role : Role} (alone : object.Alone thread)
    (done : role = .none ∨ role = .holds) (parts : object.All .stopped) :
    (object.become thread role).Lives := by
  refine .stopped alone.1 (fun other => ?_) parts
  by_cases hsame : other = thread
  · rw [hsame, become_same]
    exact done
  · rw [become_other hsame]
    exact .inl (alone.2 other hsame)

/-- A shared object stays shared while it has an owner. -/
theorem shared_become {role : Role} (roles : ∀ thread, (object.roles thread).Shares)
    (parts : object.All .started) (shares : role.Shares)
    (owned : object.published = true ∨ role.Owns ∨
      ∃ other, other ≠ thread ∧ (object.roles other).Owns) :
    (object.become thread role).Lives := by
  refine .shared (fun other => ?_) ?_ parts
  · by_cases hsame : other = thread
    · rw [hsame, become_same]
      exact shares
    · rw [become_other hsame]
      exact roles other
  · rcases owned with hpublished | howns | ⟨other, hother, howns⟩
    · exact .inl hpublished
    · exact .inr ⟨thread, by rwa [become_same]⟩
    · exact .inr ⟨other, by rwa [become_other hother]⟩

/-- A step is taken by a thread that has a role, or on a published object. -/
theorem Step.known {next : Object τ} (hstep : Step object next) : ¬ object.Absent := by
  rintro ⟨unpublished, roles⟩
  cases hstep with
  | unpublish _ published | use _ published =>
      rw [unpublished] at published
      cases published
  | start role | fail role | ready role | abort role | aborted role | publish role | used role
  | drop role | last role | destroy role | destroyed role =>
      rw [roles] at role
      cases role

/-- Every step leads from one stage to a stage. -/
theorem Lives.step {next : Object τ} (h : object.Lives) (hstep : Step object next) :
    next.Lives := by
  cases hstep with
  | start role =>
      obtain ⟨alone, parts⟩ := h.alone (by rw [role]; exact id)
      rw [role] at parts
      exact busy_become alone id parts.succ
  | fail role =>
      obtain ⟨alone, _⟩ := h.alone (by rw [role]; exact id)
      exact busy_become alone id Before.zero
  | ready role last =>
      obtain ⟨alone, parts⟩ := h.alone (by rw [role]; exact id)
      rw [role] at parts
      exact busy_become alone id (parts.all last)
  | abort role =>
      obtain ⟨alone, parts⟩ := h.alone (by rw [role]; exact id)
      rw [role] at parts
      exact busy_become alone id parts.succ
  | aborted role last =>
      obtain ⟨alone, parts⟩ := h.alone (by rw [role]; exact id)
      rw [role] at parts
      exact stopped_become alone (.inr rfl) (parts.all last)
  | @publish thread role =>
      obtain ⟨alone, parts⟩ := h.alone (by rw [role]; exact id)
      rw [role] at parts
      refine .shared (fun other => ?_) (.inl rfl) parts
      by_cases hsame : other = thread
      · rw [hsame, become_same]
        trivial
      · rw [become_other hsame]
        exact (alone.2 other hsame).symm ▸ trivial
  | unpublish role published =>
      obtain ⟨roles, parts⟩ := h.of_published published
      have hunpublished : Object.All { object with published := false } .started := parts
      exact shared_become roles hunpublished trivial (.inr (.inl trivial))
  | use role published =>
      obtain ⟨roles, parts⟩ := h.of_published published
      exact shared_become roles parts trivial (.inl published)
  | used role =>
      obtain ⟨roles, parts⟩ := h.of_used role
      exact shared_become roles parts trivial (.inr (.inl trivial))
  | @drop thread role owned =>
      rcases h.of_held role with ⟨roles, parts⟩ | ⟨unpublished, roles, parts⟩
      · exact shared_become roles parts trivial (owned.imp_right .inr)
      · refine .stopped unpublished (fun other => ?_) parts
        by_cases hsame : other = thread
        · rw [hsame, become_same]
          exact .inl rfl
        · rw [become_other hsame]
          exact roles other
  | @last thread role unpublished unowned =>
      have alone : object.Alone thread := by
        refine ⟨unpublished, fun other hother => ?_⟩
        have hshares : (object.roles other).Shares := by
          rcases h.of_held role with ⟨roles, _⟩ | ⟨_, roles, _⟩
          · exact roles other
          · rcases roles other with h | h <;> rw [h] <;> trivial
        have hnot := unowned other hother
        cases hrole : object.roles other with
        | none => rfl
        | uses => exact absurd (by rw [hrole]; trivial) hnot
        | holds => exact absurd (by rw [hrole]; trivial) hnot
        | _ => rw [hrole] at hshares; cases hshares
      exact busy_become alone id Before.zero
  | destroy role =>
      obtain ⟨alone, parts⟩ := h.alone (by rw [role]; exact id)
      rw [role] at parts
      exact busy_become alone id parts.succ
  | destroyed role last =>
      obtain ⟨alone, parts⟩ := h.alone (by rw [role]; exact id)
      rw [role] at parts
      exact stopped_become alone (.inl rfl) (parts.all last)

end Life

end Object

end SharedObject
