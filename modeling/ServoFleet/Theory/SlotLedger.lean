import Mathlib.Logic.Function.Basic
import ServoFleet.Theory.Placement

/-!
The ledger of a pool of items that threads pass around: a list of free items, a
queue of committed ones, each with a size noted beside it, and holders, which
are movable buffers and the hands of the threads. Ownership goes from place to
place one item at a time.
-/

namespace SlotLedger

open Placement

/-- What a thread holds and what it relies on: the size it has stored, or that
the item in its hands was committed as the given one of all commits. -/
inductive Hand (Item Size : Type) where
  | empty
  | holding (item : Item)
  | stored (item : Item) (size : Size)
  | popped (item : Item) (index : Nat)
  | taken (item : Item) (size : Size) (index : Nat)

@[grind]
def Hand.item {Item Size : Type} : Hand Item Size → Option Item
  | .empty => none
  | .holding item => some item
  | .stored item _ => some item
  | .popped item _ => some item
  | .taken item _ _ => some item

structure Ledger (Item Buffer Thread Size : Type) where
  free : List Item
  pending : List Item
  sizes : Item → Option Size
  commits : List (Item × Size)
  pops : List Item
  buffered : Buffer → Option Item
  hands : Thread → Hand Item Size

@[grind cases]
inductive Place (Buffer Thread : Type) where
  | free
  | pending
  | buffer (id : Buffer)
  | hands (thread : Thread)

variable {Item Buffer Thread Size : Type}

namespace Ledger

@[grind]
def At (ledger : Ledger Item Buffer Thread Size) (item : Item) : Place Buffer Thread → Prop
  | .free => item ∈ ledger.free
  | .pending => item ∈ ledger.pending
  | .buffer id => ledger.buffered id = some item
  | .hands thread => (ledger.hands thread).item = some item

/-- An item moves when only its two places change, and in them only the item. -/
theorem moves_of_places {ledger after : Ledger Item Buffer Thread Size} {item : Item}
    {source target : Place Buffer Thread} (hsource : ledger.At item source)
    (htarget : after.At item target) (hleft : ¬ after.At item source)
    (hrest : ∀ place, place ≠ source → place ≠ target →
      ∀ other, after.At other place ↔ ledger.At other place)
    (hothers : ∀ other, other ≠ item → (after.At other source ↔ ledger.At other source) ∧
      (after.At other target ↔ ledger.At other target)) :
    Moves ledger.At after.At item source target where
  atSource := hsource
  atTarget := htarget
  only := by
    intro place hat
    by_cases htarget' : place = target
    · exact .inl htarget'
    · have hsource' : place ≠ source := by
        rintro rfl
        exact hleft hat
      exact .inr ⟨(hrest place hsource' htarget' item).mp hat, hsource'⟩
  others := by
    intro other hne place
    by_cases hsource' : place = source
    · exact hsource' ▸ (hothers other hne).1
    · by_cases htarget' : place = target
      · exact htarget' ▸ (hothers other hne).2
      · exact hrest place hsource' htarget' other

/-- What a thread relies on is so. -/
def Relies (ledger : Ledger Item Buffer Thread Size) : Hand Item Size → Prop
  | .empty => True
  | .holding _ => True
  | .stored item size => ledger.sizes item = some size
  | .popped item index => ∃ size, ledger.commits[index]? = some (item, size) ∧
      ledger.sizes item = some size
  | .taken item size index => ledger.commits[index]? = some (item, size)

/-- The invariant of the ledger: every valid item is in one place, and there
once; the queue holds what was committed and not yet popped, in that order, with
the committed sizes; and every thread relies on what is so. -/
structure Invariant (valid : Item → Prop) (ledger : Ledger Item Buffer Thread Size) : Prop where
  placed : Placed valid ledger.At
  free_nodup : ledger.free.Nodup
  pending_nodup : ledger.pending.Nodup
  history : ledger.commits.map Prod.fst = ledger.pops ++ ledger.pending
  sizes : ∀ packet ∈ ledger.commits.drop ledger.pops.length,
    ledger.sizes packet.1 = some packet.2
  relies : ∀ thread, ledger.Relies (ledger.hands thread)

variable {valid : Item → Prop} {ledger after : Ledger Item Buffer Thread Size}

/-- What a hand relies on survives as long as the size of its item is left alone. -/
theorem Relies.mono {hand : Hand Item Size} (h : ledger.Relies hand)
    (hsizes : ∀ item, hand.item = some item → after.sizes item = ledger.sizes item)
    (hcommits : ledger.commits <+: after.commits) : after.Relies hand := by
  have hkept : ∀ (index : Nat) (packet : Item × Size), ledger.commits[index]? = some packet →
      after.commits[index]? = some packet := by
    intro index packet hat
    obtain ⟨more, hmore⟩ := hcommits
    rw [← hmore, List.getElem?_append_left (List.getElem?_eq_some_iff.mp hat).1, hat]
  cases hand with
  | empty => trivial
  | holding item => trivial
  | stored item size => exact (hsizes item rfl).trans h
  | popped item index =>
      obtain ⟨size, hcommit, hsize⟩ := h
      exact ⟨size, hkept _ _ hcommit, (hsizes item rfl).trans hsize⟩
  | taken item size index => exact hkept _ _ h

namespace Invariant

variable (h : ledger.Invariant valid)

include h

/-- An item that is at one place is at no other. -/
theorem apart {item : Item} (place other : Place Buffer Thread) (hplace : ledger.At item place)
    (hne : other ≠ place) : ¬ ledger.At item other :=
  fun hother => hne (h.placed.unique item other place hother hplace)

theorem pops_le : ledger.pops.length ≤ ledger.commits.length := by
  have hlen := congrArg List.length h.history
  rw [List.length_map, List.length_append] at hlen
  omega

/-- The commits that have not been popped are those of the queue. -/
theorem unpopped : (ledger.commits.drop ledger.pops.length).map Prod.fst = ledger.pending := by
  rw [List.map_drop, h.history, List.drop_left]

theorem mem_pending {packet : Item × Size}
    (member : packet ∈ ledger.commits.drop ledger.pops.length) : packet.1 ∈ ledger.pending :=
  h.unpopped ▸ List.mem_map_of_mem member

/-- The item popped next was committed after those popped, with the size noted for it. -/
theorem next_commit {item : Item} {rest : List Item} (hpending : ledger.pending = item :: rest) :
    ∃ size, ledger.commits[ledger.pops.length]? = some (item, size) ∧
      ledger.sizes item = some size := by
  have hunpopped := h.unpopped
  rw [hpending] at hunpopped
  obtain ⟨packet, more, hdrop, hfst, _⟩ := List.map_eq_cons_iff.mp hunpopped
  have hat : ledger.commits[ledger.pops.length]? = some packet := by
    have hzero := congrArg (fun packets => packets[0]?) hdrop
    simpa only [List.getElem?_drop, Nat.add_zero, List.getElem?_cons_zero] using hzero
  have hsize := h.sizes packet (hdrop ▸ List.mem_cons_self)
  subst hfst
  exact ⟨packet.2, hat, hsize⟩

/-- What is not free leaves room among the free items, and what is not queued
leaves room in the queue. -/
theorem room {all : List Item} (hall : ∀ item, valid item → item ∈ all) {item : Item}
    (place : Place Buffer Thread) (hplace : ledger.At item place) :
    (.free ≠ place → ledger.free.length < all.length) ∧
      (.pending ≠ place → ledger.pending.length < all.length) := by
  have hvalid := fun other place hat => hall other (h.placed.isValid other place hat)
  have hitem := hvalid item place hplace
  constructor
  · intro hne
    exact length_lt_of_absent h.free_nodup (fun other member => hvalid other .free member) hitem
      (h.apart place .free hplace hne)
  · intro hne
    exact length_lt_of_absent h.pending_nodup (fun other member => hvalid other .pending member)
      hitem (h.apart place .pending hplace hne)

end Invariant

variable [DecidableEq Item] [DecidableEq Buffer] [DecidableEq Thread]

/-- The transfers a thread may make. -/
inductive Step (ledger : Ledger Item Buffer Thread Size) (thread : Thread) :
    Ledger Item Buffer Thread Size → Prop where
  /-- The thread goes on, at most forgetting what it relies on. -/
  | rest : Step ledger thread ledger
  | forget {item : Item} (held : (ledger.hands thread).item = some item) :
      Step ledger thread
        { ledger with hands := Function.update ledger.hands thread (.holding item) }
  | take {item : Item} {rest : List Item} (free : ledger.free = item :: rest)
      (empty : (ledger.hands thread).item = none) :
      Step ledger thread
        { ledger with
          free := rest
          hands := Function.update ledger.hands thread (.holding item) }
  | takeBuffer {item : Item} {rest : List Item} (id : Buffer) (free : ledger.free = item :: rest)
      (vacant : ledger.buffered id = none) :
      Step ledger thread
        { ledger with free := rest, buffered := Function.update ledger.buffered id (some item) }
  | give {item : Item} (held : (ledger.hands thread).item = some item) :
      Step ledger thread
        { ledger with
          free := ledger.free ++ [item]
          hands := Function.update ledger.hands thread .empty }
  | giveBuffer {item : Item} (id : Buffer) (held : ledger.buffered id = some item) :
      Step ledger thread
        { ledger with
          free := ledger.free ++ [item]
          buffered := Function.update ledger.buffered id none }
  | draw {item : Item} (id : Buffer) (held : ledger.buffered id = some item)
      (empty : (ledger.hands thread).item = none) :
      Step ledger thread
        { ledger with
          buffered := Function.update ledger.buffered id none
          hands := Function.update ledger.hands thread (.holding item) }
  | shift {item : Item} (id other : Buffer) (held : ledger.buffered other = some item)
      (vacant : ledger.buffered id = none) :
      Step ledger thread
        { ledger with
          buffered := Function.update (Function.update ledger.buffered other none) id (some item) }
  | store {item : Item} (size : Size) (held : (ledger.hands thread).item = some item) :
      Step ledger thread
        { ledger with
          sizes := Function.update ledger.sizes item (some size)
          hands := Function.update ledger.hands thread (.stored item size) }
  /-- The size of an item in a buffer is overwritten. -/
  | erase {item : Item} (id : Buffer) (size : Size) (held : ledger.buffered id = some item) :
      Step ledger thread
        { ledger with sizes := Function.update ledger.sizes item (some size) }
  | push {item : Item} {size : Size} (held : ledger.hands thread = .stored item size) :
      Step ledger thread
        { ledger with
          pending := ledger.pending ++ [item]
          commits := ledger.commits ++ [(item, size)]
          hands := Function.update ledger.hands thread .empty }
  | pop {item : Item} {rest : List Item} (pending : ledger.pending = item :: rest)
      (empty : (ledger.hands thread).item = none) :
      Step ledger thread
        { ledger with
          pending := rest
          pops := ledger.pops ++ [item]
          hands := Function.update ledger.hands thread (.popped item ledger.pops.length) }
  | read {item : Item} {size : Size} {index : Nat} (held : ledger.hands thread = .popped item index)
      (size_eq : ledger.sizes item = some size) :
      Step ledger thread
        { ledger with hands := Function.update ledger.hands thread (.taken item size index) }

variable {thread : Thread}

/-- A transfer moves no item or one. -/
theorem Step.moves (hfree : ledger.free.Nodup) (hpending : ledger.pending.Nodup)
    (hstep : Step ledger thread after) :
    (∀ item place, after.At item place ↔ ledger.At item place) ∨
      ∃ item source target, Moves ledger.At after.At item source target := by
  cases hstep with
  | rest => exact .inl fun item place => Iff.rfl
  | forget held =>
      exact .inl fun item place => by cases place <;> grind
  | @take item rest free empty =>
      refine .inr ⟨item, .free, .hands thread, moves_of_places ?_ ?_ ?_ ?_ ?_⟩ <;> grind
  | @takeBuffer item rest id free vacant =>
      refine .inr ⟨item, .free, .buffer id, moves_of_places ?_ ?_ ?_ ?_ ?_⟩ <;> grind
  | @give item held =>
      refine .inr ⟨item, .hands thread, .free, moves_of_places ?_ ?_ ?_ ?_ ?_⟩ <;> grind
  | @giveBuffer item id held => 
      refine .inr ⟨item, .buffer id, .free, moves_of_places ?_ ?_ ?_ ?_ ?_⟩ <;> grind
  | @draw item id held empty => 
      refine .inr ⟨item, .buffer id, .hands thread, moves_of_places ?_ ?_ ?_ ?_ ?_⟩ <;> grind
  | @shift item id other held vacant => 
      refine .inr ⟨item, .buffer other, .buffer id, moves_of_places ?_ ?_ ?_ ?_ ?_⟩ <;> grind
  | store size held =>
      exact .inl fun item place => by cases place <;> grind
  | erase id size held =>
      exact .inl fun item place => by cases place <;> grind
  | @push item size held => 
      refine .inr ⟨item, .hands thread, .pending, moves_of_places ?_ ?_ ?_ ?_ ?_⟩ <;> grind
  | @pop item rest pending empty => 
      refine .inr ⟨item, .pending, .hands thread, moves_of_places ?_ ?_ ?_ ?_ ?_⟩ <;> grind
  | read held size_eq =>
      exact .inl fun item place => by cases place <;> grind

section Preserved

variable (h : ledger.Invariant valid) (hstep : Step ledger thread after)

include h hstep

theorem Step.placed : Placed valid after.At := by
  rcases hstep.moves h.free_nodup h.pending_nodup with hsame | ⟨item, source, target, hmove⟩
  · exact h.placed.congr hsame
  · exact h.placed.move hmove

theorem Step.free_nodup : after.free.Nodup := by
  have hfree := h.free_nodup
  cases hstep with
  | take free empty => exact (List.nodup_cons.mp (free ▸ hfree)).2
  | takeBuffer id free vacant => exact (List.nodup_cons.mp (free ▸ hfree)).2
  | @give item held =>
      have habsent : item ∉ ledger.free := h.apart (.hands thread) .free held nofun
      simpa using hfree.concat habsent
  | @giveBuffer item id held =>
      have habsent : item ∉ ledger.free := h.apart (.buffer id) .free held nofun
      simpa using hfree.concat habsent
  | _ => exact hfree

theorem Step.pending_nodup : after.pending.Nodup := by
  have hpending := h.pending_nodup
  cases hstep with
  | @push item size held =>
      have hitem : ledger.At item (.hands thread) := by
        change (ledger.hands thread).item = some item
        rw [held]
        rfl
      have habsent : item ∉ ledger.pending := h.apart (.hands thread) .pending hitem nofun
      simpa using hpending.concat habsent
  | pop pending empty => exact (List.nodup_cons.mp (pending ▸ hpending)).2
  | _ => exact hpending

theorem Step.history : after.commits.map Prod.fst = after.pops ++ after.pending := by
  have hhistory := h.history
  cases hstep with
  | push held => rw [List.map_append, hhistory, List.append_assoc, List.map_singleton]
  | pop pending empty => rw [hhistory, pending, List.append_assoc, List.singleton_append]
  | _ => exact hhistory

theorem Step.sizes : ∀ packet ∈ after.commits.drop after.pops.length,
    after.sizes packet.1 = some packet.2 := by
  have hsizes := h.sizes
  cases hstep with
  | @store item size held =>
      intro packet member
      have hne : packet.1 ≠ item := by
        rintro rfl
        exact h.apart (.hands thread) .pending held nofun (h.mem_pending member)
      exact (Function.update_of_ne hne _ _).trans (hsizes packet member)
  | @erase item id size held =>
      intro packet member
      have hne : packet.1 ≠ item := by
        rintro rfl
        exact h.apart (.buffer id) .pending held nofun (h.mem_pending member)
      exact (Function.update_of_ne hne _ _).trans (hsizes packet member)
  | @push item size held =>
      intro packet member
      rw [List.drop_append_of_le_length h.pops_le] at member
      rcases List.mem_append.mp member with hold | hnew
      · exact hsizes packet hold
      · obtain rfl := List.mem_singleton.mp hnew
        have hrelies := h.relies thread
        rw [held] at hrelies
        exact hrelies
  | pop pending empty =>
      intro packet member
      rw [List.length_append, List.length_singleton, ← List.drop_drop] at member
      exact hsizes packet (List.mem_of_mem_drop member)
  | _ => exact hsizes

omit h in
theorem Step.commits_prefix : ledger.commits <+: after.commits := by
  cases hstep with
  | push held => exact List.prefix_append _ _
  | _ => exact List.prefix_rfl

omit h in
theorem Step.hands_other {other : Thread} (hne : other ≠ thread) :
    after.hands other = ledger.hands other := by
  cases hstep with
  | rest => rfl
  | takeBuffer id free vacant => rfl
  | giveBuffer id held => rfl
  | shift id other held vacant => rfl
  | erase id size held => rfl
  | _ => exact Function.update_of_ne hne _ _

/-- The sizes of items in other hands are left alone. -/
theorem Step.sizes_other {other : Thread} (hne : other ≠ thread) (item : Item)
    (hitem : (ledger.hands other).item = some item) : after.sizes item = ledger.sizes item := by
  cases hstep with
  | @store written size held =>
      refine Function.update_of_ne ?_ _ _
      rintro rfl
      exact h.apart (.hands thread) (.hands other) held (fun hsame => hne (by cases hsame; rfl))
        hitem
  | @erase written id size held =>
      refine Function.update_of_ne ?_ _ _
      rintro rfl
      exact h.apart (.buffer id) (.hands other) held nofun hitem
  | _ => rfl

/-- The thread itself relies on what it has just done or seen. -/
theorem Step.relies_self : after.Relies (after.hands thread) := by
  have hrelies := h.relies thread
  cases hstep with
  | rest => exact hrelies
  | takeBuffer id free vacant => exact hrelies.mono (fun _ _ => rfl) List.prefix_rfl
  | giveBuffer id held => exact hrelies.mono (fun _ _ => rfl) List.prefix_rfl
  | shift id other held vacant => exact hrelies.mono (fun _ _ => rfl) List.prefix_rfl
  | @erase written id size held =>
      refine hrelies.mono (fun item hitem => Function.update_of_ne ?_ _ _) List.prefix_rfl
      rintro rfl
      exact h.apart (.buffer id) (.hands thread) held nofun hitem
  | @store item size held =>
      simp only [Function.update_self]
      exact Function.update_self item (some size) ledger.sizes
  | pop pending empty =>
      simp only [Function.update_self]
      exact h.next_commit pending
  | @read item size index held size_eq =>
      simp only [Function.update_self]
      rw [held] at hrelies
      obtain ⟨size', hcommit, hsize⟩ := hrelies
      obtain rfl := Option.some.inj (hsize.symm.trans size_eq)
      exact hcommit
  | _ =>
      simp only [Function.update_self]
      trivial

theorem Step.relies (other : Thread) : after.Relies (after.hands other) := by
  by_cases hsame : other = thread
  · exact hsame ▸ hstep.relies_self h
  · rw [hstep.hands_other hsame]
    exact (h.relies other).mono (hstep.sizes_other h hsame) hstep.commits_prefix

/-- Every transfer preserves the invariant. -/
theorem Step.invariant : after.Invariant valid where
  placed := hstep.placed h
  free_nodup := hstep.free_nodup h
  pending_nodup := hstep.pending_nodup h
  history := hstep.history h
  sizes := hstep.sizes h
  relies := hstep.relies h

end Preserved

end Ledger

end SlotLedger
