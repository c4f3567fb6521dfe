import ServoFleet.RuntimeLifecycle

/-!
Every step of the process is, for each runtime, a step of an object that is shared
by counted references. So a command never meets a driver that has not been started
or has been stopped, however the calls interleave, and no runtime keeps running
unowned. That a call comes to its end is left out.
-/

namespace ServoFleet

open SharedObject

/-- What a thread that stands here does with a runtime. -/
def CallPc.role (id : RuntimeId) : CallPc → Role
  | .idle => .none
  | .starting same next => if same = id then .starts next else .none
  | .aborting same next => if same = id then .aborts next else .none
  | .storing same => if same = id then .publishes else .none
  | .commanding same => if same = id then .uses else .none
  | .releasing refs => if id ∈ refs then .holds else .none
  | .destroying same next rest =>
      if same = id then .destroys next else if id ∈ rest then .holds else .none

/-- Whoever has a role that owns a reference names the runtime. -/
theorem CallPc.owned_of_role {id : RuntimeId} {pc : CallPc} (h : (pc.role id).Owns) :
    id ∈ pc.owned := by
  cases pc with
  | idle => cases h
  | releasing refs =>
      simp only [role] at h
      split_ifs at h with hmem
      · exact hmem
      · cases h
  | destroying same next rest =>
      simp only [role] at h
      split_ifs at h with hsame hmem
      · cases h
      · exact hmem
      · cases h
  | starting same _ | aborting same _ | storing same | commanding same =>
      simp only [role] at h
      split_ifs at h with hsame
      · exact List.mem_singleton.mpr hsame.symm
      · cases h

theorem CallPc.role_of_owned {id : RuntimeId} {pc : CallPc} (h : id ∈ pc.owned)
    (hrest : ∀ next rest, pc = .destroying id next rest → id ∉ rest) : (pc.role id).Owns := by
  cases pc with
  | idle => cases h
  | releasing refs =>
      rw [role, if_pos (show id ∈ refs from h)]
      trivial
  | destroying same next rest =>
      have hmem : id ∈ rest := h
      by_cases hsame : same = id
      · subst hsame
        exact absurd hmem (hrest next rest rfl)
      · rw [role, if_neg hsame, if_pos hmem]
        trivial
  | starting same _ | aborting same _ | storing same | commanding same =>
      rw [role, if_pos (List.mem_singleton.mp h).symm]
      trivial

namespace Service

variable {F : Type} {n : Nat} {service : Service F n}

/-- A runtime as its threads see it. -/
def view (service : Service F n) (id : RuntimeId) : Object (Fin n) where
  parts := (service.objects[id]?.map RuntimeObject.drivers).getD []
  published := decide (service.published = some id)
  roles := fun thread => (service.threads thread).role id

theorem goTo_same (thread : Fin n) (pc : CallPc) :
    (service.goTo thread pc).threads thread = pc := Function.update_self ..

theorem goTo_other {thread other : Fin n} (h : other ≠ thread) (pc : CallPc) :
    (service.goTo thread pc).threads other = service.threads other := Function.update_of_ne h ..

theorem view_goTo (thread : Fin n) (pc : CallPc) (id : RuntimeId) :
    (service.goTo thread pc).view id = (service.view id).become thread (pc.role id) := by
  have hroles : (fun other => (Function.update service.threads thread pc other).role id) =
      Function.update (fun other => (service.threads other).role id) thread (pc.role id) := by
    funext other
    by_cases hsame : other = thread
    · rw [hsame, Function.update_self, Function.update_self]
    · rw [Function.update_of_ne hsame, Function.update_of_ne hsame]
  simp only [view, goTo, Object.become, hroles]
  rfl

theorem view_become_same {thread : Fin n} {id : RuntimeId} {role : Role}
    (h : (service.threads thread).role id = role) :
    (service.view id).become thread role = service.view id := by
  subst h
  simp only [Object.become, view, Function.update_eq_self]

theorem view_setDriver_same (id : RuntimeId) (slot : Nat) (phase : DriverPhase) :
    (service.setDriver id slot phase).view id = (service.view id).setPart slot phase := by
  simp only [view, setDriver, Object.setPart, List.getElem?_modify_eq]
  cases service.objects[id]? <;> rfl

theorem view_setDriver_other {id other : RuntimeId} (h : id ≠ other) (slot : Nat)
    (phase : DriverPhase) : (service.setDriver id slot phase).view other = service.view other := by
  simp only [view, setDriver, List.getElem?_modify_ne _ _ h]
  rfl

variable (service) in
theorem driverCount_eq (id : RuntimeId) :
    service.driverCount id = (service.view id).parts.length := by
  simp only [driverCount, view]
  cases service.objects[id]? <;> rfl

/-- For every runtime a step is a step of its life, or none. -/
def Moved (service next : Service F n) : Prop :=
  next.objects.length = service.objects.length ∧
    ∀ id, next.view id = service.view id ∨ Object.Step (service.view id) (next.view id)

theorem goTo_moved {thread : Fin n} {pc : CallPc}
    (h : ∀ id, (service.threads thread).role id = pc.role id ∨
      Object.Step (service.view id) ((service.view id).become thread (pc.role id))) :
    Moved service (service.goTo thread pc) := by
  refine ⟨rfl, fun id => ?_⟩
  rw [view_goTo]
  exact (h id).imp_left view_become_same

/-- One runtime takes a step and all others stay as they are. -/
theorem goTo_moved_one {thread : Fin n} {pc : CallPc} (id : RuntimeId)
    (hothers : ∀ other, other ≠ id →
      (service.threads thread).role other = pc.role other)
    (h : Object.Step (service.view id) ((service.view id).become thread (pc.role id))) :
    Moved service (service.goTo thread pc) :=
  goTo_moved fun other => by
    by_cases hsame : other = id
    · exact .inr (hsame ▸ h)
    · exact .inl (hothers other hsame)

/-- A driver of one runtime starts or stops. -/
theorem setDriver_moved {thread : Fin n} {pc : CallPc} (id : RuntimeId) {slot : Nat}
    {phase : DriverPhase}
    (hothers : ∀ other, other ≠ id →
      (service.threads thread).role other = pc.role other)
    (h : Object.Step (service.view id)
      (((service.view id).setPart slot phase).become thread (pc.role id))) :
    Moved service ((service.setDriver id slot phase).goTo thread pc) := by
  refine ⟨List.length_modify _ _ _, fun other => ?_⟩
  rw [view_goTo]
  by_cases hsame : other = id
  · rw [hsame, view_setDriver_same]
    exact .inr h
  · rw [view_setDriver_other (Ne.symm hsame)]
    exact .inl (view_become_same (hothers other hsame))

/-! ## The invariant -/

/-- Every runtime is in a stage of its life; no reference names one not made yet. -/
structure Sound (service : Service F n) : Prop where
  lives : ∀ id, (service.view id).Lives
  fresh : ∀ id, service.objects.length ≤ id → (service.view id).Absent
  rest : ∀ thread id next rest, service.threads thread = .destroying id next rest → id ∉ rest

theorem init_sound : ({} : Service F n).Sound where
  lives _ := .stopped rfl (fun _ => .inl rfl) (by simp [Object.All, view])
  fresh _ _ := ⟨rfl, fun _ => rfl⟩
  rest := by simp

/-- Where a step leaves its thread, and that it moves every runtime along. -/
structure Goes (service : Service F n) (thread : Fin n) (pc : CallPc) (next : Service F n) :
    Prop where
  threads : next.threads = Function.update service.threads thread pc
  rest : ∀ id k rest, pc = .destroying id k rest → id ∉ rest
  moved : Moved service next

section Step

variable {thread : Fin n}

/-- The new value is in place before the old one is let go of. -/
theorem store_view (next : Option RuntimeId) (refs : List RuntimeId) (id : RuntimeId) :
    (service.store thread next refs).view id =
      ({ service.view id with published := decide (next = some id) }).become thread
        (CallPc.role id (.releasing (service.published.toList ++ refs))) := by
  rw [store, view_goTo]
  rfl

theorem shutdown_goes (hidle : service.threads thread = .idle) :
    Goes service thread (.releasing service.published.toList) (service.store thread none []) := by
  refine ⟨by simp [store, goTo], by simp, rfl, fun id => ?_⟩
  rw [store_view, List.append_nil]
  by_cases hpublished : service.published = some id
  · have hview : (service.view id).published = true := decide_eq_true hpublished
    have hrole : CallPc.role id (.releasing service.published.toList) = .holds := by
      simp [CallPc.role, hpublished]
    rw [hrole]
    exact .inr (.unpublish (congrArg (CallPc.role id) hidle) hview)
  · have hview : (service.view id).published = false := decide_eq_false hpublished
    have hrole : CallPc.role id (.releasing service.published.toList) = .none := by
      simp [CallPc.role, Option.mem_toList, hpublished]
    have hsame : ({ service.view id with published := decide (none = some id) } : Object (Fin n)) =
        service.view id := by
      simp [← hview]
    rw [hrole, hsame]
    exact .inl (view_become_same (congrArg (CallPc.role id) hidle))

theorem publish_goes (sound : service.Sound) {id : RuntimeId}
    (hpc : service.threads thread = .storing id) :
    Goes service thread (.releasing (service.published.toList ++ [id]))
      (service.store thread (some id) [id]) := by
  have hpublishes : (service.view id).roles thread = .publishes := by
    simp [view, hpc, CallPc.role]
  obtain ⟨⟨hunpublished, _⟩, _⟩ := (sound.lives id).alone (by rw [hpublishes]; exact fun h => h)
  refine ⟨by simp [store, goTo], by simp, rfl, fun other => ?_⟩
  rw [store_view]
  by_cases hsame : other = id
  · subst hsame
    have hrole : CallPc.role other (.releasing (service.published.toList ++ [other])) = .holds := by
      simp [CallPc.role]
    rw [hrole, decide_eq_true rfl]
    exact .inr (.publish hpublishes)
  · have hnone : (service.threads thread).role other = .none := by
      rw [hpc, CallPc.role, if_neg (Ne.symm hsame)]
    have hnew : decide (some id = some other) = false := by simp [Ne.symm hsame]
    rw [hnew]
    by_cases hpublished : service.published = some other
    · have hview : (service.view other).published = true := decide_eq_true hpublished
      have hrole : CallPc.role other (.releasing (service.published.toList ++ [id])) = .holds := by
        simp [CallPc.role, hpublished]
      rw [hrole]
      exact .inr (.unpublish hnone hview)
    · have hview : (service.view other).published = false := decide_eq_false hpublished
      have hrole : CallPc.role other (.releasing (service.published.toList ++ [id])) = .none := by
        simp [CallPc.role, Option.mem_toList, hpublished, hsame]
      rw [hrole, ← hview]
      exact .inl (view_become_same hnone)

theorem release_goes (sound : service.Sound) {id : RuntimeId} {rest : List RuntimeId}
    (hpc : service.threads thread = .releasing (id :: rest)) :
    ∃ pc, Goes service thread pc (service.release thread id rest) := by
  have hholds : (service.view id).roles thread = .holds := by
    simp [view, hpc, CallPc.role]
  have hothers : ∀ other, other ≠ id →
      (service.threads thread).role other = CallPc.role other (.releasing rest) := by
    intro other hother
    simp [hpc, CallPc.role, hother]
  rw [release]
  by_cases hunowned : (service.goTo thread (.releasing rest)).Unowned id
  · rw [if_pos hunowned]
    have hrest : id ∉ rest := by
      have h := hunowned.2 thread
      rwa [goTo_same] at h
    have htwice : (service.goTo thread (.releasing rest)).goTo thread (.destroying id 0 rest) =
        service.goTo thread (.destroying id 0 rest) := by
      simp [goTo]
    rw [htwice]
    refine ⟨_, rfl, ?_, goTo_moved_one id ?_ ?_⟩
    · rintro _ _ _ ⟨⟩
      exact hrest
    · intro other hother
      rw [hothers other hother, CallPc.role, CallPc.role, if_neg (Ne.symm hother)]
    · have hrole : CallPc.role id (.destroying id 0 rest) = .destroys 0 := if_pos rfl
      rw [hrole]
      refine .last hholds (decide_eq_false hunowned.1) fun other hother howns => ?_
      have h := hunowned.2 other
      rw [goTo_other hother] at h
      exact h (CallPc.owned_of_role howns)
  · rw [if_neg hunowned]
    refine ⟨_, rfl, by simp, ?_⟩
    by_cases hrest : id ∈ rest
    · refine goTo_moved fun other => .inl ?_
      by_cases hsame : other = id
      · rw [hsame, hpc]
        simp [CallPc.role, hrest]
      · exact hothers other hsame
    · refine goTo_moved_one id hothers ?_
      have hrole : CallPc.role id (.releasing rest) = .none := if_neg hrest
      rw [hrole]
      refine .drop hholds ?_
      by_cases hpublished : service.published = some id
      · exact .inl (decide_eq_true hpublished)
      · refine .inr ?_
        by_contra hnone
        refine hunowned ⟨hpublished, fun other hmem => ?_⟩
        by_cases hsame : other = thread
        · rw [hsame, goTo_same] at hmem
          exact hrest hmem
        · rw [goTo_other hsame] at hmem
          exact hnone ⟨other, hsame, CallPc.role_of_owned hmem fun k rest hpc =>
            sound.rest other id k rest hpc⟩

/-- Every step except the making of a runtime. -/
theorem step_goes [FloatArith F] (sound : service.Sound) {action : CallAction}
    {next : Service F n} (h : service.step (thread, action) = some next)
    (hinit : ∀ options opens, action ≠ .init options opens) :
    ∃ pc, Goes service thread pc next := by
  simp only [step] at h
  split at h
  · exact absurd rfl (hinit _ _)
  · rename_i hpc
    obtain rfl := Option.some.inj h
    exact ⟨_, shutdown_goes hpc⟩
  · rename_i hpc
    cases hpublished : service.published with
    | none =>
        simp only [hpublished, Option.some.injEq] at h
        subst h
        refine ⟨.idle, ?_, by simp, rfl, fun id => .inl rfl⟩
        rw [← hpc, Function.update_eq_self]
    | some id =>
        simp only [hpublished, Option.some.injEq] at h
        subst h
        refine ⟨_, rfl, by simp, goTo_moved_one id (fun other hother => ?_) ?_⟩
        · simp [hpc, CallPc.role, Ne.symm hother]
        · rw [CallPc.role, if_pos rfl]
          exact .use (congrArg (CallPc.role id) hpc) (decide_eq_true hpublished)
  · rename_i id k starts hpc
    have hstarts : (service.view id).roles thread = .starts k := by simp [view, hpc, CallPc.role]
    split_ifs at h with hlt hok
    · obtain rfl := Option.some.inj h
      refine ⟨_, rfl, by simp, setDriver_moved id (fun other hother => ?_) ?_⟩
      · simp [hpc, CallPc.role, Ne.symm hother]
      · rw [CallPc.role, if_pos rfl]
        exact .start hstarts
    · obtain rfl := Option.some.inj h
      refine ⟨_, rfl, by simp, goTo_moved_one id (fun other hother => ?_) ?_⟩
      · simp [hpc, CallPc.role, Ne.symm hother]
      · rw [CallPc.role, if_pos rfl]
        exact .fail hstarts
  · rename_i id k hpc
    have hstarts : (service.view id).roles thread = .starts k := by simp [view, hpc, CallPc.role]
    split_ifs at h with hlt
    obtain rfl := Option.some.inj h
    refine ⟨_, rfl, by simp, goTo_moved_one id (fun other hother => ?_) ?_⟩
    · simp [hpc, CallPc.role, Ne.symm hother]
    · rw [CallPc.role, if_pos rfl]
      exact .ready hstarts (driverCount_eq service id ▸ Nat.le_of_not_lt hlt)
  · rename_i id k hpc
    have haborts : (service.view id).roles thread = .aborts k := by simp [view, hpc, CallPc.role]
    split_ifs at h with hlt
    · obtain rfl := Option.some.inj h
      refine ⟨_, rfl, by simp, setDriver_moved id (fun other hother => ?_) ?_⟩
      · simp [hpc, CallPc.role, Ne.symm hother]
      · rw [CallPc.role, if_pos rfl]
        exact .abort haborts
    · obtain rfl := Option.some.inj h
      refine ⟨_, rfl, by simp, goTo_moved_one id (fun other hother => ?_) ?_⟩
      · simp [hpc, CallPc.role, hother, Ne.symm hother]
      · rw [CallPc.role, if_pos (List.mem_singleton_self id)]
        exact .aborted haborts (driverCount_eq service id ▸ Nat.le_of_not_lt hlt)
  · rename_i id hpc
    obtain rfl := Option.some.inj h
    exact ⟨_, publish_goes sound hpc⟩
  · rename_i id hpc
    obtain rfl := Option.some.inj h
    refine ⟨_, rfl, by simp, goTo_moved_one id (fun other hother => ?_) ?_⟩
    · simp [hpc, CallPc.role, hother, Ne.symm hother]
    · rw [CallPc.role, if_pos (List.mem_singleton_self id)]
      exact .used (by simp [view, hpc, CallPc.role])
  · rename_i hpc
    obtain rfl := Option.some.inj h
    exact ⟨_, rfl, by simp, goTo_moved fun id => .inl (by simp [hpc, CallPc.role])⟩
  · rename_i id rest hpc
    obtain rfl := Option.some.inj h
    exact release_goes sound hpc
  · rename_i id k rest hpc
    have hrest := sound.rest thread id k rest hpc
    have hdestroys : (service.view id).roles thread = .destroys k := by
      simp [view, hpc, CallPc.role]
    split_ifs at h with hlt
    · obtain rfl := Option.some.inj h
      refine ⟨_, rfl, ?_, setDriver_moved id (fun other hother => ?_) ?_⟩
      · rintro _ _ _ ⟨⟩
        exact hrest
      · simp [hpc, CallPc.role, Ne.symm hother]
      · rw [CallPc.role, if_pos rfl]
        exact .destroy hdestroys
    · obtain rfl := Option.some.inj h
      refine ⟨_, rfl, by simp, goTo_moved_one id (fun other hother => ?_) ?_⟩
      · simp [hpc, CallPc.role, Ne.symm hother]
      · rw [CallPc.role, if_neg hrest]
        exact .destroyed hdestroys (driverCount_eq service id ▸ Nat.le_of_not_lt hlt)
  · cases h

/-- A runtime that comes up is known to its maker only. -/
theorem beginInit_sound [FloatArith F] (sound : service.Sound)
    (hidle : service.threads thread = .idle) (options : FleetConfig)
    (opens : ChannelConfig → Bool) : (service.beginInit thread options opens).Sound := by
  unfold beginInit
  cases (Runtime.init options opens : Result (Runtime F)) with
  | error err => exact sound
  | ok runtime =>
      let object : RuntimeObject F :=
        { runtime, drivers := runtime.motorDrivers.map fun _ => .created }
      let made : Service F n := { service with objects := service.objects ++ [object] }
      let pc : CallPc := .starting service.objects.length 0
      change (made.goTo thread pc).Sound
      have hold : ∀ id, id ≠ service.objects.length →
          (made.goTo thread pc).view id = service.view id := by
        intro id hid
        have hparts : made.objects[id]? = service.objects[id]? := by
          rcases Nat.lt_or_gt_of_ne hid with hlt | hgt
          · exact List.getElem?_append_left hlt
          · rw [List.getElem?_eq_none (by simp [made]; omega),
              List.getElem?_eq_none (by omega)]
        have hview : made.view id = service.view id := by
          simp only [view, hparts]
          rfl
        have hrole : pc.role id = .none := if_neg (Ne.symm hid)
        rw [view_goTo, hrole, hview]
        exact view_become_same (congrArg (CallPc.role id) hidle)
      have habsent := sound.fresh _ (Nat.le_refl service.objects.length)
      have hnew : ((made.goTo thread pc).view service.objects.length).Lives := by
        rw [view_goTo, show pc.role service.objects.length = .starts 0 from if_pos rfl]
        refine Object.busy_become ⟨habsent.1, fun other _ => habsent.2 other⟩ (fun h => h) ?_
        exact Object.Before.zero
      have hlength : (made.goTo thread pc).objects.length = service.objects.length + 1 :=
        List.length_append
      refine ⟨fun id => ?_, fun id hid => ?_, fun other id next rest hpc => ?_⟩
      · by_cases hid : id = service.objects.length
        · exact hid ▸ hnew
        · exact hold id hid ▸ sound.lives id
      · have hid : service.objects.length + 1 ≤ id := hlength ▸ hid
        rw [hold id (by omega)]
        exact sound.fresh id (by omega)
      · by_cases hsame : other = thread
        · rw [hsame, goTo_same] at hpc
          exact absurd hpc (by simp [pc])
        · rw [goTo_other hsame] at hpc
          exact sound.rest other id next rest hpc

theorem step_sound [FloatArith F] (sound : service.Sound) (action : Fin n × CallAction)
    (next : Service F n) (h : service.step action = some next) : next.Sound := by
  obtain ⟨thread, action⟩ := action
  by_cases hinit : ∃ options opens, action = .init options opens
  · obtain ⟨options, opens, rfl⟩ := hinit
    cases hpc : service.threads thread with
    | idle =>
        simp only [step, hpc, Option.some.injEq] at h
        exact h ▸ beginInit_sound sound hpc options opens
    | _ => simp [step, hpc] at h
  · obtain ⟨pc, hgoes⟩ := step_goes sound h fun options opens heq => hinit ⟨options, opens, heq⟩
    refine ⟨fun id => ?_, fun id hid => ?_, fun other id k rest hpc => ?_⟩
    · rcases hgoes.moved.2 id with hsame | hstep
      · exact hsame ▸ sound.lives id
      · exact (sound.lives id).step hstep
    · have habsent := sound.fresh id (hgoes.moved.1 ▸ hid)
      rcases hgoes.moved.2 id with hsame | hstep
      · exact hsame ▸ habsent
      · exact absurd habsent hstep.known
    · rw [hgoes.threads] at hpc
      by_cases hsame : other = thread
      · rw [hsame, Function.update_self] at hpc
        exact hgoes.rest id k rest hpc
      · rw [Function.update_of_ne hsame] at hpc
        exact sound.rest other id k rest hpc

end Step

/-! ## Runs -/

/-- Every driver of a runtime that was made is in this phase. -/
def AllDrivers (service : Service F n) (id : RuntimeId) (phase : DriverPhase) : Prop :=
  ∃ object, service.objects[id]? = some object ∧ ∀ driver ∈ object.drivers, driver = phase

theorem Sound.all_drivers (sound : service.Sound) {id : RuntimeId} {phase : DriverPhase}
    (known : ¬ (service.view id).Absent) (parts : (service.view id).All phase) :
    service.AllDrivers id phase := by
  cases hobject : service.objects[id]? with
  | none => exact absurd (sound.fresh id (List.getElem?_eq_none_iff.mp hobject)) known
  | some object =>
      refine ⟨object, hobject, fun driver member => parts driver ?_⟩
      simpa only [view, hobject, Option.map_some, Option.getD_some] using member

/-- However the calls interleave: a thread in `command` has a runtime all of whose drivers
are started, none stopped; so has the published runtime; and every runtime that no one
owns and no one is destroying has stopped all of its drivers. -/
theorem runtime_outlives_commands [FloatArith F] (actions : List (Fin n × CallAction))
    (final : Service F n) (hrun : Steps.run step {} actions = some final) :
    (∀ thread id, final.threads thread = .commanding id → final.AllDrivers id .started) ∧
      (∀ id, final.published = some id → final.AllDrivers id .started) ∧
      ∀ id < final.objects.length, final.Unowned id →
        (∀ thread next rest, final.threads thread ≠ .destroying id next rest) →
        final.AllDrivers id .stopped := by
  have sound : final.Sound := Steps.run_invariant
    (fun service action next sound h => step_sound sound action next h) hrun init_sound
  refine ⟨fun thread id hpc => ?_, fun id hpublished => ?_, fun id hid hunowned hidle => ?_⟩
  · have huses : (final.view id).roles thread = .uses := by simp [view, hpc, CallPc.role]
    refine sound.all_drivers (fun habsent => ?_) ((sound.lives id).of_used huses).2
    rw [habsent.2 thread] at huses
    cases huses
  · have hview : (final.view id).published = true := decide_eq_true hpublished
    refine sound.all_drivers (fun habsent => ?_) ((sound.lives id).of_published hview).2
    rw [habsent.1] at hview
    cases hview
  · have habsent : (final.view id).Absent := by
      refine ⟨decide_eq_false hunowned.1, fun thread => ?_⟩
      have hnot : ¬ ((final.threads thread).role id).Owns := fun howns =>
        hunowned.2 thread (CallPc.owned_of_role howns)
      change (final.threads thread).role id = .none
      cases hpc : final.threads thread with
      | idle => rfl
      | destroying same next rest =>
          have hne : same ≠ id := fun hsame => hidle thread next rest (hsame ▸ hpc)
          rw [hpc] at hnot
          rw [CallPc.role, if_neg hne]
          split_ifs with hmem
          · rw [CallPc.role, if_neg hne, if_pos hmem] at hnot
            exact absurd trivial hnot
          · rfl
      | _ =>
          rw [hpc] at hnot
          simp only [CallPc.role] at hnot ⊢
          split_ifs at hnot ⊢
          · exact absurd trivial hnot
          · rfl
    have hparts := (sound.lives id).of_absent habsent
    refine ⟨final.objects[id], List.getElem?_eq_getElem hid, fun driver member => hparts driver ?_⟩
    simpa only [view, List.getElem?_eq_getElem hid, Option.map_some, Option.getD_some] using member

/-- One thread brings a runtime up and shuts it down again while another is in `command`. -/
def raceRun : List (Fin 2 × CallAction) :=
  [(0, .init
      { channels := [{ name := "leg" }]
        motors := [{ name := "hip", channel := "leg", model := "EC-A4310-P2-36" }] }
      fun _ => true),
    (0, .startDriver true), (0, .advance), (0, .advance), (0, .advance), (0, .advance),
    (1, .command), (0, .shutdown), (0, .advance), (0, .advance)]

theorem command_outlives_shutdown : ∃ final : Service (Option ℚ) 2,
    Steps.run step {} raceRun = some final ∧ final.published = none ∧
      final.threads 0 = .idle ∧ final.AllDrivers 0 .started := by
  have hrace : (Steps.run step ({} : Service (Option ℚ) 2) raceRun).map (fun service =>
      (service.published, service.threads 0, service.threads 1)) =
      some (none, .idle, .commanding 0) := by decide +kernel
  obtain ⟨final, hrun, hfinal⟩ := Option.map_eq_some_iff.mp hrace
  rw [Prod.mk.injEq, Prod.mk.injEq] at hfinal
  obtain ⟨hpublished, hfirst, hsecond⟩ := hfinal
  exact ⟨final, hrun, hpublished, hfirst,
    (runtime_outlives_commands raceRun final hrun).1 1 0 hsecond⟩

end Service

end ServoFleet
