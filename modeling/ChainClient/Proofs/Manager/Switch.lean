import ChainClient.Proofs.Manager.Effects

/-!
# What a switch says

A switch says something at every time: what the last signal that has taken effect has set
it to. Letting time pass and watching the switch follow what it says. A watch ends
when the switch first says that the wait is cancelled, and a switch that is never on
changes nothing of what comes of a program.
-/

namespace ChainClient

namespace Scenario

variable {σ α : Type}

/-! ## What a switch says -/

namespace Switch

/-- The settings to come, each with the time at which it takes effect: its own time, but not
before now and not before the one in front of it. -/
def settings (now : Nat) : List (Nat × Signal) → List (Nat × Bool)
  | [] => []
  | (_, .abandon) :: _ => []
  | (due, .set value) :: rest => (max now due, value) :: settings (max now due) rest

/-- What the switch says at a time, once all settings up to this time have taken effect. -/
def saysAt (now time : Nat) (switch : Switch) : Bool :=
  ((settings now switch.coming).filter (·.1 ≤ time)).getLast?.elim switch.cancelled Prod.snd

theorem le_of_mem_settings {now : Nat} {coming : List (Nat × Signal)} :
    ∀ setting ∈ settings now coming, now ≤ setting.1 := by
  fun_induction settings now coming with
  | case1 => exact List.forall_mem_nil _
  | case2 => exact List.forall_mem_nil _
  | case3 now due value rest ih =>
      rw [List.forall_mem_cons]
      exact ⟨Nat.le_max_left now due, fun setting hsetting =>
        Nat.le_trans (Nat.le_max_left now due) (ih setting hsetting)⟩

@[simp] theorem saysAt_nil (now time : Nat) (cancelled : Bool) :
    saysAt now time ⟨cancelled, []⟩ = cancelled := rfl

@[simp] theorem saysAt_abandon (now time due : Nat) (cancelled : Bool)
    (rest : List (Nat × Signal)) :
    saysAt now time ⟨cancelled, (due, .abandon) :: rest⟩ = cancelled := rfl

theorem saysAt_set (now time due : Nat) (cancelled value : Bool) (rest : List (Nat × Signal)) :
    saysAt now time ⟨cancelled, (due, .set value) :: rest⟩ =
      if max now due ≤ time then saysAt (max now due) time ⟨value, rest⟩ else cancelled := by
  rw [saysAt, settings, List.filter_cons]
  by_cases htime : max now due ≤ time
  · rw [if_pos (decide_eq_true htime), if_pos htime, List.getLast?_cons, saysAt]
    cases ((settings (max now due) rest).filter (·.1 ≤ time)).getLast? <;> rfl
  · have hlater : (settings (max now due) rest).filter (·.1 ≤ time) = [] := by
      rw [List.filter_eq_nil_iff]
      intro setting hsetting
      have hdue := le_of_mem_settings setting hsetting
      simp only [decide_eq_true_eq]
      omega
    rw [if_neg (by simpa using htime), if_neg htime, hlater]
    rfl

/-- Signals that are not due yet may as well be looked at later. -/
theorem saysAt_of_le {now later time due : Nat} (hlater : now ≤ later) (hdue : later ≤ due)
    (cancelled : Bool) (signal : Signal) (rest : List (Nat × Signal)) :
    saysAt later time ⟨cancelled, (due, signal) :: rest⟩ =
      saysAt now time ⟨cancelled, (due, signal) :: rest⟩ := by
  cases signal with
  | abandon => rfl
  | set value =>
      rw [saysAt_set, saysAt_set, Nat.max_eq_right hdue,
        Nat.max_eq_right (Nat.le_trans hlater hdue)]

theorem saysAt_settleBefore {now finish : Nat} (hfinish : now < finish) (cancelled : Bool)
    (coming : List (Nat × Signal)) :
    (settleBefore finish cancelled coming).cancelled =
        saysAt now (finish - 1) ⟨cancelled, coming⟩ ∧
      ∀ time, finish ≤ time → saysAt finish time (settleBefore finish cancelled coming) =
        saysAt now time ⟨cancelled, coming⟩ := by
  induction coming generalizing now cancelled with
  | nil => exact ⟨rfl, fun _ _ => rfl⟩
  | cons entry rest ih =>
      obtain ⟨due, signal⟩ := entry
      by_cases hdue : due < finish
      · cases signal with
        | abandon =>
            rw [settleBefore, if_pos hdue]
            exact ⟨rfl, fun _ _ => rfl⟩
        | set value =>
            obtain ⟨hvalue, hrest⟩ := ih (Nat.max_lt.mpr ⟨hfinish, hdue⟩) value
            rw [settleBefore, if_pos hdue]
            refine ⟨?_, fun time htime => ?_⟩
            · rw [saysAt_set, if_pos (by omega), hvalue]
            · rw [saysAt_set, if_pos (by omega), hrest time htime]
      · have hsame : settleBefore finish cancelled ((due, signal) :: rest) =
            ⟨cancelled, (due, signal) :: rest⟩ := by
          cases signal <;> rw [settleBefore, if_neg hdue]
        rw [hsame]
        refine ⟨?_, fun time _ =>
          saysAt_of_le (Nat.le_of_lt hfinish) (by omega) cancelled signal rest⟩
        cases signal with
        | abandon => rfl
        | set value => rw [saysAt_set, if_neg (by omega)]

/-- While nobody looks at it, the switch comes to say what it said just before the end. -/
theorem cancelled_pass {start finish : Nat} (hfinish : start < finish) (switch : Switch) :
    (switch.pass start finish).cancelled = switch.saysAt start (finish - 1) := by
  rw [pass, if_pos hfinish]
  exact (saysAt_settleBefore hfinish _ _).1

theorem saysAt_pass {start finish time : Nat} (hfinish : start ≤ finish) (htime : finish ≤ time)
    (switch : Switch) :
    (switch.pass start finish).saysAt finish time = switch.saysAt start time := by
  rcases Nat.eq_or_lt_of_le hfinish with rfl | hfinish
  · rw [pass_self]
  · rw [pass, if_pos hfinish]
    exact (saysAt_settleBefore hfinish _ _).2 time htime

/-- Until the first signal takes effect the switch says what it is set to. -/
theorem saysAt_of_lt {now time due : Nat} (htime : time < max now due) (cancelled : Bool)
    (signal : Signal) (rest : List (Nat × Signal)) :
    saysAt now time ⟨cancelled, (due, signal) :: rest⟩ = cancelled := by
  cases signal with
  | abandon => rfl
  | set value => rw [saysAt_set, if_neg (by omega)]

/-- A watch ends at the first time at which the switch says that the wait is cancelled. -/
theorem watchUntil_of_saysAt {deadline now time : Nat} {cancelled : Bool}
    {coming : List (Nat × Signal)} (hnow : now ≤ time) (htime : time < deadline)
    (hcancelled : saysAt now time ⟨cancelled, coming⟩ = true)
    (hbefore : ∀ earlier, now ≤ earlier → earlier < time →
      saysAt now earlier ⟨cancelled, coming⟩ = false) :
    (watchUntil deadline now cancelled coming).1 = time ∧
      (watchUntil deadline now cancelled coming).2.cancelled = true := by
  -- what the switch says from now on it says no later than at the time looked for
  have hfirst : saysAt now now ⟨cancelled, coming⟩ = true → now = time := by
    intro hsays
    by_contra hne
    rw [hbefore now (Nat.le_refl now) (by omega)] at hsays
    cases hsays
  fun_induction watchUntil deadline now cancelled coming with
  | case1 now cancelled =>
      rw [saysAt_nil] at hcancelled hfirst
      exact ⟨by rw [if_pos hcancelled, hfirst hcancelled], hcancelled⟩
  | case2 now cancelled due signal rest hset =>
      rw [Bool.and_eq_true, decide_eq_true_eq] at hset
      rw [saysAt_of_lt (by omega)] at hfirst
      exact ⟨hfirst hset.1, rfl⟩
  | case3 now cancelled due rest hset hdue value ih =>
      rw [Bool.and_eq_true, decide_eq_true_eq] at hset
      have hreached : max now due ≤ time := by
        by_contra hlater
        rw [saysAt_of_lt (by omega)] at hcancelled
        exact hset ⟨hcancelled, by omega⟩
      rw [saysAt_set, if_pos hreached] at hcancelled
      have hbefore : ∀ earlier, max now due ≤ earlier → earlier < time →
          saysAt (max now due) earlier ⟨value, rest⟩ = false := by
        intro earlier hdue hearlier
        have hsays := hbefore earlier (by omega) hearlier
        rwa [saysAt_set, if_pos hdue] at hsays
      refine ih hreached hcancelled hbefore fun hsays => ?_
      by_contra hne
      rw [hbefore _ (Nat.le_refl _) (by omega)] at hsays
      cases hsays
  | case4 now cancelled due rest hset hdue =>
      rw [saysAt_abandon] at hcancelled hfirst
      exact ⟨by rw [if_pos hcancelled, hfirst hcancelled], hcancelled⟩
  | case5 now cancelled due signal rest hset hdue =>
      rw [Bool.and_eq_true, decide_eq_true_eq] at hset
      rw [saysAt_of_lt (by omega)] at hcancelled
      exact absurd ⟨hcancelled, by omega⟩ hset

/-- A watch of a switch that says nothing lasts until its deadline. -/
theorem watchUntil_of_silent {deadline now : Nat} {cancelled : Bool}
    {coming : List (Nat × Signal)} (hnow : now < deadline)
    (hsilent : ∀ time, now ≤ time → time < deadline →
      saysAt now time ⟨cancelled, coming⟩ = false) :
    (watchUntil deadline now cancelled coming).1 = deadline ∧
      (watchUntil deadline now cancelled coming).2.cancelled = false ∧
      ∀ time, deadline ≤ time → saysAt deadline time (watchUntil deadline now cancelled coming).2 =
        saysAt now time ⟨cancelled, coming⟩ := by
  have hfirst := hsilent now (Nat.le_refl now) hnow
  fun_induction watchUntil deadline now cancelled coming with
  | case1 now cancelled =>
      rw [saysAt_nil] at hfirst
      exact ⟨by rw [hfirst]; rfl, hfirst, fun _ _ => rfl⟩
  | case2 now cancelled due signal rest hset =>
      rw [Bool.and_eq_true, decide_eq_true_eq] at hset
      rw [saysAt_of_lt (by omega), hset.1] at hfirst
      cases hfirst
  | case3 now cancelled due rest hset hdue value ih =>
      have hrest : ∀ time, max now due ≤ time →
          saysAt now time ⟨cancelled, (due, .set value) :: rest⟩ =
            saysAt (max now due) time ⟨value, rest⟩ := by
        intro time htime
        rw [saysAt_set, if_pos htime]
      have hsilent : ∀ time, max now due ≤ time → time < deadline →
          saysAt (max now due) time ⟨value, rest⟩ = false := by
        intro time hstart htime
        rw [← hrest time hstart]
        exact hsilent time (by omega) htime
      obtain ⟨hend, hoff, hlater⟩ := ih hdue hsilent (hsilent _ (Nat.le_refl _) hdue)
      refine ⟨hend, hoff, fun time htime => ?_⟩
      rw [hlater time htime, hrest time (by omega)]
  | case4 now cancelled due rest hset hdue =>
      rw [saysAt_abandon] at hfirst
      exact ⟨by rw [hfirst]; rfl, hfirst, fun _ _ => rfl⟩
  | case5 now cancelled due signal rest hset hdue =>
      rw [saysAt_of_lt (by omega)] at hfirst
      exact ⟨rfl, hfirst, fun time _ =>
        saysAt_of_le (Nat.le_of_lt hnow) (by omega) cancelled signal rest⟩

/-- In no time no signal takes effect. -/
theorem watchUntil_self (now : Nat) (coming : List (Nat × Signal)) :
    watchUntil now now false coming = (now, ⟨false, coming⟩) := by
  cases coming with
  | nil => rfl
  | cons entry rest =>
      obtain ⟨due, signal⟩ := entry
      have hdue : ¬ max now due < now := by omega
      cases signal <;> rw [watchUntil, if_neg (by simp), if_neg hdue]

theorem watch_of_saysAt {start time deadline : Nat} {switch : Switch}
    (hoff : switch.cancelled = false) (hstart : start ≤ time) (htime : time < deadline)
    (hcancelled : switch.saysAt start time = true)
    (hbefore : ∀ earlier, start ≤ earlier → earlier < time →
      switch.saysAt start earlier = false) :
    (switch.watch start deadline).1 = time ∧ (switch.watch start deadline).2.cancelled = true := by
  obtain ⟨cancelled, coming⟩ := switch
  obtain rfl : cancelled = false := hoff
  exact watchUntil_of_saysAt hstart htime hcancelled hbefore

theorem watch_of_silent {start deadline : Nat} {switch : Switch}
    (hoff : switch.cancelled = false) (hdeadline : start ≤ deadline)
    (hsilent : ∀ time, start ≤ time → time < deadline → switch.saysAt start time = false) :
    (switch.watch start deadline).1 = deadline ∧
      (switch.watch start deadline).2.cancelled = false ∧
      ∀ time, deadline ≤ time →
        (switch.watch start deadline).2.saysAt deadline time = switch.saysAt start time := by
  obtain ⟨cancelled, coming⟩ := switch
  obtain rfl : cancelled = false := hoff
  rcases Nat.eq_or_lt_of_le hdeadline with rfl | hdeadline
  · exact ⟨congrArg Prod.fst (watchUntil_self start coming),
      congrArg (fun result => result.2.cancelled) (watchUntil_self start coming),
      fun time _ => congrArg (fun result => saysAt start time result.2)
        (watchUntil_self start coming)⟩
  · exact watchUntil_of_silent hdeadline hsilent

end Switch

/-! ## Switches that are never on -/

/-- The switch is off and never says that a wait is cancelled. -/
structure Switch.IsSilent (switch : Switch) (now : Nat) : Prop where
  off : switch.cancelled = false
  silent : ∀ time, now ≤ time → switch.saysAt now time = false

theorem Switch.IsSilent.pass {switch : Switch} {start finish : Nat}
    (hsilent : switch.IsSilent start) (hfinish : start ≤ finish) :
    (switch.pass start finish).IsSilent finish := by
  refine ⟨?_, fun time htime => ?_⟩
  · rcases Nat.eq_or_lt_of_le hfinish with rfl | hlater
    · rw [Switch.pass_self, hsilent.off]
    · rw [Switch.cancelled_pass hlater, hsilent.silent _ (by omega)]
  · rw [Switch.saysAt_pass hfinish htime, hsilent.silent _ (Nat.le_trans hfinish htime)]

theorem Switch.IsSilent.watch {switch : Switch} {start deadline : Nat}
    (hsilent : switch.IsSilent start) (hdeadline : start ≤ deadline) :
    (switch.watch start deadline).1 = deadline ∧
      (switch.watch start deadline).2.IsSilent deadline := by
  obtain ⟨hend, hoff, hlater⟩ := Switch.watch_of_silent hsilent.off hdeadline
    fun time htime _ => hsilent.silent time htime
  refine ⟨hend, hoff, fun time htime => ?_⟩
  rw [hlater time htime, hsilent.silent time (Nat.le_trans hdeadline htime)]

/-- The scenario without its switch. -/
def unwatched (scenario : Scenario σ) : Scenario σ :=
  { scenario with switch := .untouched }

/-- The switch of a scenario that is never on gives the answers that nobody's switch gives. -/
theorem perform_unwatched (respond : Responder σ) {scenario : Scenario σ}
    (hsilent : scenario.switch.IsSilent scenario.clock) (effect : Effect) :
    scenario.unwatched.perform respond effect =
        ((scenario.perform respond effect).1, (scenario.perform respond effect).2.unwatched) ∧
      (scenario.perform respond effect).2.switch.IsSilent
        (scenario.perform respond effect).2.clock := by
  cases effect with
  | request query =>
      refine ⟨?_, hsilent.pass (Nat.le_add_right _ _)⟩
      simp [perform, unwatched, Switch.pass, Switch.untouched, Switch.settleBefore]
  | acquire => exact ⟨rfl, hsilent⟩
  | release next => exact ⟨rfl, hsilent⟩
  | isCancelled => exact ⟨Prod.ext hsilent.off.symm rfl, hsilent⟩
  | pause milliseconds =>
      obtain ⟨hend, hnext⟩ := hsilent.watch (Nat.le_add_right scenario.clock milliseconds)
      simp only [perform, unwatched, Switch.watch_untouched, hend]
      exact ⟨Prod.ext hnext.off.symm rfl, hnext⟩

/-- A switch that is never on does not change what comes of a program. -/
theorem run_unwatched {respond : Responder σ} {scenario : Scenario σ}
    (hsilent : scenario.switch.IsSilent scenario.clock) (program : Program α) :
    run respond program scenario.unwatched =
      { run respond program scenario with
        scenario := (run respond program scenario).scenario.unwatched } := by
  induction program generalizing scenario with
  | done value => rfl
  | perform effect resume ih =>
      obtain ⟨hperform, hnext⟩ := perform_unwatched respond hsilent effect
      rw [run_perform, run_perform, hperform, ih _ hnext]
      rfl

/-! ## Switches that are turned on -/

/-- The switch is off, and is going to be on from a time on. -/
structure Switch.TurnsOn (switch : Switch) (now time : Nat) : Prop where
  off : switch.cancelled = false
  le : now ≤ time
  saysAt_iff : ∀ later, now ≤ later → (switch.saysAt now later = true ↔ time ≤ later)

/-- A switch that is set to false and then to true is on from the second time on. -/
theorem Switch.turnsOn_set_set {now early time : Nat} (hnow : now ≤ early) (htime : early ≤ time) :
    Switch.TurnsOn ⟨false, [(early, .set false), (time, .set true)]⟩ now time := by
  refine ⟨rfl, Nat.le_trans hnow htime, fun later _ => ?_⟩
  rw [Switch.saysAt_set, Switch.saysAt_set, Switch.saysAt_nil]
  grind

theorem Switch.TurnsOn.saysAt_eq_false {switch : Switch} {now time earlier : Nat}
    (hturns : switch.TurnsOn now time) (hnow : now ≤ earlier) (hearlier : earlier < time) :
    switch.saysAt now earlier = false := by
  rw [← Bool.not_eq_true, hturns.saysAt_iff earlier hnow]
  omega

theorem Switch.TurnsOn.cancelled_pass {switch : Switch} {start finish time : Nat}
    (hturns : switch.TurnsOn start time) (hfinish : time < finish) :
    (switch.pass start finish).cancelled = true := by
  have hstart := hturns.le
  rw [Switch.cancelled_pass (by omega), hturns.saysAt_iff _ (by omega)]
  omega

theorem Switch.TurnsOn.pass {switch : Switch} {start finish time : Nat}
    (hturns : switch.TurnsOn start time) (hfinish : start ≤ finish) (htime : finish ≤ time) :
    (switch.pass start finish).TurnsOn finish time := by
  refine ⟨?_, htime, fun later hlater => ?_⟩
  · rcases Nat.eq_or_lt_of_le hfinish with rfl | hfinish
    · rw [Switch.pass_self, hturns.off]
    · rw [Switch.cancelled_pass hfinish, hturns.saysAt_eq_false (by omega) (by omega)]
  · rw [Switch.saysAt_pass hfinish hlater, hturns.saysAt_iff later (Nat.le_trans hfinish hlater)]

theorem Switch.TurnsOn.watch_ends {switch : Switch} {start deadline time : Nat}
    (hturns : switch.TurnsOn start time) (hdeadline : time < deadline) :
    (switch.watch start deadline).1 = time ∧ (switch.watch start deadline).2.cancelled = true :=
  Switch.watch_of_saysAt hturns.off hturns.le hdeadline
    ((hturns.saysAt_iff time hturns.le).mpr (Nat.le_refl time))
    fun _ hstart hearlier => hturns.saysAt_eq_false hstart hearlier

theorem Switch.TurnsOn.watch_lasts {switch : Switch} {start deadline time : Nat}
    (hturns : switch.TurnsOn start time) (hdeadline : start ≤ deadline) (htime : deadline ≤ time) :
    (switch.watch start deadline).1 = deadline ∧
      (switch.watch start deadline).2.TurnsOn deadline time := by
  obtain ⟨hend, hoff, hlater⟩ := Switch.watch_of_silent hturns.off hdeadline
    fun earlier hstart hearlier => hturns.saysAt_eq_false hstart (by omega)
  refine ⟨hend, hoff, htime, fun later hstart => ?_⟩
  rw [hlater later hstart, hturns.saysAt_iff later (Nat.le_trans hdeadline hstart)]

end Scenario

end ChainClient
