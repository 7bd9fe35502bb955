import ChainClient.Proofs.Manager.Tasks
import Mathlib.Data.List.Basic

/-!
# Submissions exclude each other

The lock is held from before a task learns its nonce until its transaction is answered, so
that no other transaction gets between the two. With a node that counts what it accepts,
no nonce is accepted twice; when the manager counts, none is even sent twice.
-/

namespace ChainClient

open Node Operation Scenario

namespace Action

/-- The action hands a transaction to the node, or is about its answer. -/
inductive IsSubmission : Action → Prop where
  | send (signed : SignedTransaction) : IsSubmission (.send (.submit signed))
  | deliver (signed : SignedTransaction) (answer : Json) :
      IsSubmission (.deliver (.submit signed) answer)
  | receive (signed : SignedTransaction) (reply : Reply) :
      IsSubmission (.receive (.submit signed) reply)

def sent? : Action → Option SignedTransaction
  | .send (.submit signed) => some signed
  | _ => none

end Action

/-- A node that reports as nonce of the manager's account how many transactions it has
accepted, from a starting value on. -/
structure CountsAccepted {ν : Type} (manager : Manager) (handle : ν → Query → Json → ν → Prop)
    (accepted : ν → List SignedTransaction) (start : Nat) : Prop where
  question : ∀ {node answer next}, handle node manager.question answer next →
    accepted next = accepted node ∧
      ∀ nonce, nonceOf (.ok answer) = .ok nonce → nonce.toNat = start + (accepted node).length
  submit : ∀ {node signed answer next}, handle node (.submit signed) answer next →
    accepted next = accepted node ∨ accepted next = accepted node ++ [signed]
  receipt : ∀ {node chain hash answer next}, handle node (.receipt chain hash) answer next →
    accepted next = accepted node

section Exclusion

variable {ι ν : Type} [DecidableEq ι] {manager : Manager}
  {handle : ν → Query → Json → ν → Prop} {phases : ι → Phase} {shared next : Shared ι ν}
  {trace : List (ι × Action)} {i : ι} {action : Action} {phase later : Phase}

namespace Phase

theorem Advance.inside_of_isSubmission (hadvance : phase.Advance manager action later)
    (hsubmission : action.IsSubmission) : phase.Inside := by
  cases hadvance with
  | ask | count | exceed => cases hsubmission
  | watch hlook => cases hlook <;> cases hsubmission
  | _ => trivial

theorem Advance.inside_or_acquire (hadvance : phase.Advance manager action later)
    (hlater : later.Inside) :
    phase.Inside ∨ phase = .waiting ∧ ∃ kept, action = .acquire kept := by
  cases hadvance with
  | ask | count | exceed => exact .inr ⟨rfl, _, rfl⟩
  | watch hlook => exact hlater.elim
  | _ => exact .inl trivial

theorem Advance.of_release {kept : Option UInt64}
    (hadvance : phase.Advance manager (.release kept) later) :
    phase = .leaving kept ∧ later = .watching := by
  cases hadvance with
  | release => exact ⟨rfl, rfl⟩
  | watch hlook => cases hlook

theorem Advance.ne_waiting (hadvance : phase.Advance manager action later) :
    later ≠ .waiting := by
  rintro rfl
  cases hadvance with
  | count hcounted hhanded htakes => cases htakes
  | learn hreported hhanded htakes => cases htakes

end Phase

/-! ## One task inside at a time -/

/-- Whoever is inside has the lock. -/
def HoldsLock (phases : ι → Phase) (shared : Shared ι ν) : Prop :=
  ∀ i, (phases i).Inside → shared.holder = some i

omit [DecidableEq ι] in
theorem HoldsLock.eq_of_inside {j : ι} (hholds : HoldsLock phases shared)
    (hi : (phases i).Inside) (hj : (phases j).Inside) : j = i :=
  Option.some.inj ((hholds j hj).symm.trans (hholds i hi))

theorem HoldsLock.step (hholds : HoldsLock phases shared)
    (hadvance : (phases i).Advance manager action later)
    (hshared : shared.Step handle i action next) :
    HoldsLock (Function.update phases i later) next := by
  -- Unless the lock is taken or released, who is inside now has been inside before.
  have hstays : next.holder = shared.holder → (∀ kept, action ≠ .acquire kept) →
      HoldsLock (Function.update phases i later) next := by
    intro hholder hno
    refine (Function.forall_update_iff phases fun j phase => phase.Inside → _).mpr ⟨?_, ?_⟩
    · intro hlater
      rcases hadvance.inside_or_acquire hlater with hinside | ⟨-, kept, hacquire⟩
      · exact hholder.trans (hholds i hinside)
      · exact absurd hacquire (hno kept)
    · intro j _ hinside
      exact hholder.trans (hholds j hinside)
  cases hshared with
  | acquire hfree =>
      refine (Function.forall_update_iff phases fun j phase => phase.Inside → _).mpr ⟨?_, ?_⟩
      · intro _
        rfl
      · intro j _ hinside
        cases hfree.symm.trans (hholds j hinside)
  | release kept =>
      obtain ⟨hleaving, rfl⟩ := hadvance.of_release
      refine (Function.forall_update_iff phases fun j phase => phase.Inside → _).mpr ⟨?_, ?_⟩
      · exact False.elim
      · intro j hj hinside
        have hi : (phases i).Inside := by
          rw [hleaving]
          trivial
        exact absurd (hholds.eq_of_inside hi hinside) hj
  | _ => exact hstays rfl nofun

/-! ## No submission between a task's first action and its own submission -/

theorem sublist_concat {α : Type} (xs : List α) {trace : List α} {x y : α}
    (hsublist : (xs ++ [x]).Sublist (trace ++ [y])) :
    (xs ++ [x]).Sublist trace ∨ x = y ∧ xs.Sublist trace := by
  rw [← List.reverse_sublist, List.reverse_append, List.reverse_append] at hsublist
  rcases List.cons_sublist_cons'.mp hsublist with hbefore | ⟨rfl, hbefore⟩
  · left
    rw [← List.reverse_sublist, List.reverse_append]
    exact hbefore
  · exact .inr ⟨rfl, List.reverse_sublist.mp hbefore⟩

/-- Submissions of two tasks do not interleave. -/
structure KeepsApart (phases : ι → Phase) (shared : Shared ι ν) (trace : List (ι × Action)) :
    Prop where
  holds : HoldsLock phases shared
  unseen : ∀ i, phases i = .waiting → ∀ action, (i, action) ∉ trace
  alone : ∀ i, (phases i).Inside → ∀ j first action,
    [(i, first), (j, action)].Sublist trace → action.IsSubmission → j = i
  apart : ∀ i j first action last, [(i, first), (j, action), (i, last)].Sublist trace →
    action.IsSubmission → last.IsSubmission → j = i

theorem KeepsApart.step (hkeeps : KeepsApart phases shared trace)
    (hadvance : (phases i).Advance manager action later)
    (hshared : shared.Step handle i action next) :
    KeepsApart (Function.update phases i later) next (trace ++ [(i, action)]) where
  holds := hkeeps.holds.step hadvance hshared
  unseen := by
    refine (Function.forall_update_iff phases fun j phase => phase = .waiting →
      ∀ other, (j, other) ∉ _).mpr ⟨?_, ?_⟩
    · exact fun hwaiting => absurd hwaiting hadvance.ne_waiting
    · intro j hj hwaiting other hmem
      rcases List.mem_append.mp hmem with hmem | hmem
      · exact hkeeps.unseen j hwaiting other hmem
      · exact hj (Prod.ext_iff.mp (List.mem_singleton.mp hmem)).1
  alone := by
    refine (Function.forall_update_iff phases fun k phase => phase.Inside →
      ∀ j first (other : Action), [(k, first), (j, other)].Sublist _ → other.IsSubmission →
        j = k).mpr ⟨?_, ?_⟩
    · intro hlater j first other hsublist hsubmission
      -- A task that has just got inside has done nothing before.
      rcases sublist_concat [(i, first)] hsublist with hbefore | ⟨hlast, -⟩
      · rcases hadvance.inside_or_acquire hlater with hinside | ⟨hwaiting, -⟩
        · exact hkeeps.alone i hinside j first other hbefore hsubmission
        · exact absurd (hbefore.subset List.mem_cons_self) (hkeeps.unseen i hwaiting first)
      · exact (Prod.ext_iff.mp hlast).1
    · intro k hk hinside j first other hsublist hsubmission
      rcases sublist_concat [(k, first)] hsublist with hbefore | ⟨hlast, -⟩
      · exact hkeeps.alone k hinside j first other hbefore hsubmission
      · cases hlast
        have hi := hadvance.inside_of_isSubmission hsubmission
        exact hkeeps.holds.eq_of_inside hinside hi
  apart := by
    rintro k j first other last hsublist hother hlast
    rcases sublist_concat [(k, first), (j, other)] hsublist with hbefore | ⟨heq, hbefore⟩
    · exact hkeeps.apart k j first other last hbefore hother hlast
    · cases heq
      have hi := hadvance.inside_of_isSubmission hlast
      exact hkeeps.alone _ hi j first other hbefore hother

/-! ## A node that counts what it accepts -/

/-- The nonce that the task has or is about to get is this number. -/
def Phase.IsCurrent (count : Nat) : Phase → Prop
  | asked _ (some answer) => ∀ nonce, nonceOf (.ok answer) = .ok nonce → nonce.toNat = count
  | holding nonce _ => nonce.toNat = count
  | submitting nonce _ false => nonce.toNat = count
  | _ => True

omit [DecidableEq ι] in
theorem Phase.isCurrent_of_not_inside {count : Nat} (houtside : ¬ phase.Inside) :
    phase.IsCurrent count := by
  cases phase with
  | waiting | watching => trivial
  | _ => exact absurd trivial houtside

/-- Accepted transactions carry consecutive nonces, and nobody is late with the next. -/
structure AcceptsInOrder (accepted : ν → List SignedTransaction) (start : Nat)
    (phases : ι → Phase) (shared : Shared ι ν) : Prop where
  holds : HoldsLock phases shared
  ordered : ∀ index signed, (accepted shared.node)[index]? = some signed →
    signed.transaction.nonce.toNat = start + index
  current : ∀ i, (phases i).IsCurrent (start + (accepted shared.node).length)

theorem AcceptsInOrder.step {accepted : ν → List SignedTransaction} {start : Nat}
    (hnetwork : manager.strategy = .network)
    (hcounts : CountsAccepted manager handle accepted start)
    (haccepts : AcceptsInOrder accepted start phases shared)
    (hadvance : (phases i).Advance manager action later)
    (hshared : shared.Step handle i action next) :
    AcceptsInOrder accepted start (Function.update phases i later) next := by
  have hholds := haccepts.holds.step hadvance hshared
  have hcurrent := haccepts.current i
  -- While nothing is accepted, only the task that acts can make a difference.
  have hsame : accepted next.node = accepted shared.node →
      later.IsCurrent (start + (accepted shared.node).length) →
      AcceptsInOrder accepted start (Function.update phases i later) next := by
    intro hnode hlater
    refine ⟨hholds, by simpa only [hnode] using haccepts.ordered, ?_⟩
    rw [hnode]
    exact (Function.forall_update_iff phases fun _ phase => phase.IsCurrent _).mpr
      ⟨hlater, fun j _ => haccepts.current j⟩
  generalize hphase : phases i = phase at hadvance hcurrent
  cases hadvance with
  | ask hasked =>
      cases hshared with
      | acquire hfree => exact hsame rfl trivial
  | count hcounted | exceed hcounted =>
      rw [Manager.counted?, hnetwork] at hcounted
      cases hcounted
  | question =>
      cases hshared with
      | send query => exact hsame rfl trivial
  | answer =>
      cases hshared with
      | deliver hhandle =>
          obtain ⟨hnode, hreport⟩ := hcounts.question hhandle
          exact hsame hnode hreport
  | learn hreported hhanded htakes =>
      cases hshared with
      | receive query reply =>
          cases htakes with
          | signed => exact hsame rfl (hcurrent _ hreported)
          | unsigned => exact hsame rfl trivial
  | refuse hrefused =>
      cases hshared with
      | receive query reply => exact hsame rfl trivial
  | submit signed =>
      cases hshared with
      | send query => exact hsame rfl hcurrent
  | arrive signed answer =>
      cases hshared with
      | deliver hhandle =>
          rcases hcounts.submit hhandle with hnode | hnode
          · exact hsame hnode trivial
          · refine ⟨hholds, ?_, ?_⟩
            · intro index other hother
              rw [hnode] at hother
              rcases Nat.lt_or_ge index (accepted shared.node).length with hlt | hge
              · rw [List.getElem?_append_left hlt] at hother
                exact haccepts.ordered index other hother
              · rw [List.getElem?_append_right hge, List.getElem?_singleton] at hother
                obtain ⟨hlast, hsame⟩ := Option.ite_none_right_eq_some.mp hother
                obtain rfl := Option.some.inj hsame
                have hindex : index = (accepted shared.node).length := by omega
                rw [hindex]
                exact hcurrent
            · have hinside : (phases i).Inside := by
                rw [hphase]
                trivial
              refine (Function.forall_update_iff phases fun _ phase => phase.IsCurrent _).mpr
                ⟨trivial, fun j hj => ?_⟩
              exact Phase.isCurrent_of_not_inside fun hother =>
                hj (haccepts.holds.eq_of_inside hinside hother)
  | close signed reply =>
      cases hshared with
      | receive query reply => exact hsame rfl trivial
  | release =>
      cases hshared with
      | release kept => exact hsame rfl trivial
  | watch hlook =>
      cases hlook with
      | deliver chain hash answer =>
          cases hshared with
          | deliver hhandle => exact hsame (hcounts.receipt hhandle) trivial
      | _ =>
          cases hshared
          exact hsame rfl trivial

/-! ## A manager that counts -/

def submissions (trace : List (ι × Action)) : List SignedTransaction :=
  trace.filterMap fun move => move.2.sent?

/-- All nonces are below the one that is kept; without one there is none. -/
def Below (sent : List SignedTransaction) : Option UInt64 → Prop
  | none => sent = []
  | some bound => ∀ signed ∈ sent, signed.transaction.nonce < bound

/-- What the task is going to keep is above every nonce that has been sent. -/
def Phase.Bounds (sent : List SignedTransaction) : Phase → Prop
  | waiting => True
  | asking kept => kept = none ∧ sent = []
  | asked kept _ => kept = none ∧ sent = []
  | holding nonce next => ∃ later, next = some later ∧ nonce < later ∧ Below sent (some nonce)
  | submitting _ next _ => Below sent next
  | leaving next => Below sent next
  | watching => True

omit [DecidableEq ι] in
theorem Phase.bounds_of_not_inside {sent : List SignedTransaction} (houtside : ¬ phase.Inside) :
    phase.Bounds sent := by
  cases phase with
  | waiting | watching => trivial
  | _ => exact absurd trivial houtside

theorem lt_of_following {nonce next : UInt64} (hnext : Manager.following nonce = .ok next) :
    nonce < next := by
  rw [UInt64.lt_iff_toNat_lt, Manager.following_eq_ok_iff.mp hnext]
  exact Nat.lt_succ_self _

theorem below_nil {kept : Option UInt64} : Below [] kept := by
  cases kept with
  | none => rfl
  | some bound => exact fun _ hsigned => absurd hsigned List.not_mem_nil

theorem Below.mono {sent : List SignedTransaction} {nonce next : UInt64}
    (hbelow : Below sent (some nonce)) (hlt : nonce < next) : Below sent (some next) :=
  fun signed hsigned => UInt64.lt_trans (hbelow signed hsigned) hlt

theorem Phase.Takes.bounds {sent : List SignedTransaction} {nonce : UInt64}
    {kept next : Option UInt64} (hbatch : manager.strategy = .batch)
    (hhanded : manager.handOut kept nonce = .ok (nonce, next)) (htakes : phase.Takes nonce next)
    (hbelow : Below sent (some nonce)) : phase.Bounds sent := by
  obtain ⟨later, rfl, hnext⟩ : ∃ later, next = some later ∧ Manager.following nonce = .ok later :=
    Manager.next_of_handOut hbatch hhanded
  cases htakes with
  | signed => exact ⟨later, rfl, lt_of_following hnext, hbelow⟩
  | unsigned => exact hbelow.mono (lt_of_following hnext)

/-- Sent transactions carry different nonces, all of them below the next one. -/
structure SendsInOrder (phases : ι → Phase) (shared : Shared ι ν) (trace : List (ι × Action)) :
    Prop where
  holds : HoldsLock phases shared
  distinct : ((submissions trace).map (·.transaction.nonce)).Nodup
  free : shared.holder = none → Below (submissions trace) shared.kept
  bounds : ∀ i, (phases i).Bounds (submissions trace)

theorem SendsInOrder.step (hbatch : manager.strategy = .batch)
    (hsends : SendsInOrder phases shared trace)
    (hadvance : (phases i).Advance manager action later)
    (hshared : shared.Step handle i action next) :
    SendsInOrder (Function.update phases i later) next (trace ++ [(i, action)]) := by
  have hholds := hsends.holds.step hadvance hshared
  have hbounds := hsends.bounds i
  have hcounted : ∀ kept, manager.counted? kept = kept := by
    intro kept
    simp only [Manager.counted?, hbatch]
  -- While nothing is sent, only the task that acts can make a difference.
  have hsame : action.sent? = none → later.Bounds (submissions trace) →
      (next.holder = none → Below (submissions trace) next.kept) →
      SendsInOrder (Function.update phases i later) next (trace ++ [(i, action)]) := by
    intro hsent hlater hfree
    have hsubmissions : submissions (trace ++ [(i, action)]) = submissions trace := by
      simp [submissions, hsent]
    refine ⟨hholds, by rw [hsubmissions]; exact hsends.distinct, by rwa [hsubmissions], ?_⟩
    rw [hsubmissions]
    exact (Function.forall_update_iff phases fun _ phase => phase.Bounds _).mpr
      ⟨hlater, fun j _ => hsends.bounds j⟩
  generalize hphase : phases i = phase at hadvance hbounds
  cases hadvance with
  | ask hasked =>
      cases hshared with
      | acquire hfree =>
          rw [hcounted] at hasked
          have hnone := hsends.free hfree
          rw [hasked] at hnone
          exact hsame rfl ⟨hasked, hnone⟩ fun htaken => absurd htaken (Option.some_ne_none i)
  | count hkept hhanded htakes =>
      cases hshared with
      | acquire hfree =>
          rw [hcounted] at hkept
          have hbelow := hsends.free hfree
          rw [hkept] at hbelow
          exact hsame rfl (htakes.bounds hbatch hhanded hbelow) fun htaken =>
            absurd htaken (Option.some_ne_none i)
  | exceed hkept hlast =>
      cases hshared with
      | acquire hfree =>
          exact hsame rfl (hsends.free hfree) fun htaken => absurd htaken (Option.some_ne_none i)
  | question =>
      cases hshared with
      | send query => exact hsame rfl hbounds hsends.free
  | answer =>
      cases hshared with
      | deliver hhandle => exact hsame rfl hbounds hsends.free
  | @learn _ _ answer nonce _ hreported hhanded htakes =>
      cases hshared with
      | receive query reply =>
          obtain ⟨hnone, hempty⟩ := hbounds
          have hbelow : Below (submissions trace) (some nonce) := by
            rw [hempty]
            exact below_nil
          exact hsame rfl (htakes.bounds hbatch hhanded hbelow) hsends.free
  | refuse hrefused =>
      cases hshared with
      | receive query reply =>
          obtain ⟨rfl, hempty⟩ := hbounds
          exact hsame rfl hempty hsends.free
  | submit signed =>
      cases hshared with
      | send query =>
          obtain ⟨later, rfl, hlater, hbelow⟩ := hbounds
          have hinside : (phases i).Inside := by
            rw [hphase]
            trivial
          have hsubmissions : submissions (trace ++ [(i, .send (.submit signed))]) =
              submissions trace ++ [signed] := by
            simp [submissions, Action.sent?]
          refine ⟨hholds, ?_, ?_, ?_⟩
          · rw [hsubmissions, List.map_append, List.nodup_append]
            refine ⟨hsends.distinct, List.pairwise_singleton _ _, ?_⟩
            intro nonce hnonce other hother
            obtain ⟨earlier, hearlier, rfl⟩ := List.mem_map.mp hnonce
            obtain rfl := List.mem_singleton.mp hother
            exact UInt64.ne_of_lt (hbelow earlier hearlier)
          · intro hfree
            cases hfree.symm.trans (hsends.holds i hinside)
          · rw [hsubmissions]
            refine (Function.forall_update_iff phases fun _ phase => phase.Bounds _).mpr
              ⟨?_, fun j hj => ?_⟩
            · refine List.forall_mem_append.mpr ⟨hbelow.mono hlater, ?_⟩
              exact List.forall_mem_singleton.mpr hlater
            · exact Phase.bounds_of_not_inside fun hother =>
                hj (hsends.holds.eq_of_inside hinside hother)
  | arrive signed answer =>
      cases hshared with
      | deliver hhandle => exact hsame rfl hbounds hsends.free
  | close signed reply =>
      cases hshared with
      | receive query reply => exact hsame rfl hbounds hsends.free
  | release =>
      cases hshared with
      | release kept => exact hsame rfl trivial fun _ => hbounds
  | watch hlook =>
      cases hlook <;> cases hshared <;> exact hsame rfl trivial hsends.free

theorem nodup_of_ordered {accepted : List SignedTransaction} {start : Nat}
    (hordered : ∀ index signed, accepted[index]? = some signed →
      signed.transaction.nonce.toNat = start + index) :
    (accepted.map (·.transaction.nonce)).Nodup := by
  refine List.pairwise_map.mpr (List.pairwise_iff_getElem.mpr ?_)
  intro first second hfirst hsecond hlt heq
  have hstart := hordered first _ (List.getElem?_eq_getElem hfirst)
  have hlater := hordered second _ (List.getElem?_eq_getElem hsecond)
  rw [heq] at hstart
  omega

/-- However submissions of one manager interleave, none of them comes between what another
task does before its own submission and that submission. So a node that counts accepts no
nonce twice, and a manager that counts sends none twice. -/
theorem Execution.nonces_distinct {calls : ι → Call} {kept : Option UInt64} {node : ν}
    {system : System ι (fun i => Except ClientError (calls i).Answer) ν}
    (hsubmits : ∀ i, (calls i).Submits)
    (hexecution : Execution handle (System.start manager calls kept node) trace system) :
    (∀ i j first action last, [(i, first), (j, action), (i, last)].Sublist trace →
      action.IsSubmission → last.IsSubmission → j = i) ∧
    (manager.strategy = .network → ∀ accepted start, CountsAccepted manager handle accepted start →
      accepted node = [] →
        ((accepted system.shared.node).map (·.transaction.nonce)).Nodup) ∧
    (manager.strategy = .batch → ((submissions trace).map (·.transaction.nonce)).Nodup) := by
  have hholds : HoldsLock (fun _ : ι => .waiting) (⟨none, kept, node⟩ : Shared ι ν) :=
    fun _ => False.elim
  refine ⟨?_, ?_, ?_⟩
  · obtain ⟨phases, -, hkeeps⟩ := Execution.invariant KeepsApart hsubmits hexecution
      ⟨hholds, fun _ _ _ => List.not_mem_nil, fun _ => False.elim, by simp⟩ KeepsApart.step
    exact hkeeps.apart
  · intro hnetwork accepted start hcounts hnone
    obtain ⟨phases, -, haccepts⟩ := Execution.invariant
      (fun phases shared _ => AcceptsInOrder accepted start phases shared) hsubmits hexecution
      ⟨hholds, by simp [hnone], fun _ => trivial⟩ (AcceptsInOrder.step hnetwork hcounts)
    exact nodup_of_ordered haccepts.ordered
  · intro hbatch
    obtain ⟨phases, -, hsends⟩ := Execution.invariant SendsInOrder hsubmits hexecution
      ⟨hholds, .nil, fun _ => below_nil, fun _ => trivial⟩ (SendsInOrder.step hbatch)
    exact hsends.distinct

end Exclusion

/-! ### Two payments -/

namespace Execution

/-- A node that accepts every transaction, and reports seven as the nonce before the first
and eight before the second. It never has a receipt. -/
def ledger : Responder (List SignedTransaction) := fun accepted query => match query with
  | .account _ _ => ⟨.ok (match accepted with
      | [] => .object [("result", .object [("nonce", .number "7")])]
      | [_] => .object [("result", .object [("nonce", .number "8")])]
      | _ => .null), 0, accepted⟩
  | .submit signed =>
      ⟨.ok (.object [("result", .object [("TXhash", .string "0x12")])]), 0, accepted ++ [signed]⟩
  | _ => ⟨.ok (.object []), 0, accepted⟩

theorem nonceOf_ledger_nil {query : Query}
    (hquery : ∃ chain address, query = .account chain address) :
    nonceOf (ledger [] query).reply = .ok 7 := by
  obtain ⟨chain, address, rfl⟩ := hquery
  change nonceOf (.ok (.object [("result", .object [("nonce", .number "7")])])) = .ok 7
  decide +kernel

theorem nonceOf_ledger_singleton (signed : SignedTransaction) {query : Query}
    (hquery : ∃ chain address, query = .account chain address) :
    nonceOf (ledger [signed] query).reply = .ok 8 := by
  obtain ⟨chain, address, rfl⟩ := hquery
  change nonceOf (.ok (.object [("result", .object [("nonce", .number "8")])])) = .ok 8
  decide +kernel

theorem countsAccepted_ledger (manager : Manager) :
    CountsAccepted manager ledger.Handles id 7 where
  question := by
    rintro accepted answer next ⟨hreply, rfl⟩
    refine ⟨rfl, fun nonce hnonce => ?_⟩
    rw [← hreply] at hnonce
    match accepted with
    | [] =>
        cases (nonceOf_ledger_nil ⟨_, _, rfl⟩).symm.trans hnonce
        rfl
    | [signed] =>
        cases (nonceOf_ledger_singleton signed ⟨_, _, rfl⟩).symm.trans hnonce
        rfl
    | _ :: _ :: _ => cases hnonce
  submit := by
    rintro accepted signed answer next ⟨-, rfl⟩
    exact .inr rfl
  receipt := by
    rintro accepted chain hash answer next ⟨-, rfl⟩
    rfl

/-- With these transactions accepted, and this nonce kept, the manager reserves a nonce and
the nonce to keep behind it. -/
structure Reserves (manager : Manager) (accepted : List SignedTransaction) (kept : Option UInt64)
    (nonce : UInt64) (next : Option UInt64) : Prop where
  value_eq : (run ledger manager.reserve.run ⟨accepted, 0, kept, .untouched⟩).value =
    .ok (nonce, next)
  node_eq : (run ledger manager.reserve.run ⟨accepted, 0, kept, .untouched⟩).scenario.node =
    accepted

section Ledger

variable {manager : Manager} {request : Request} {accepted : List SignedTransaction}
  {kept next : Option UInt64} {nonce : UInt64} {signed : SignedTransaction}

theorem reserves_of_reported (hasked : manager.counted? kept = none)
    (hreported : nonceOf (ledger accepted manager.question).reply = .ok nonce)
    (hhanded : manager.handOut kept nonce = .ok (nonce, next)) :
    Reserves manager accepted kept nonce next := by
  have hrun : run ledger manager.reserve.run ⟨accepted, 0, kept, .untouched⟩ = _ :=
    Manager.run_reserve_of_reported hasked hreported hhanded
  exact ⟨congrArg Run.value hrun, congrArg (·.scenario.node) hrun⟩

theorem reserves_of_counted (hcounted : manager.counted? kept = some nonce)
    (hhanded : manager.handOut kept nonce = .ok (nonce, next)) :
    Reserves manager accepted kept nonce next := by
  have hrun : run ledger manager.reserve.run ⟨accepted, 0, kept, .untouched⟩ = _ :=
    Manager.run_reserve_of_counted hcounted hhanded
  exact ⟨congrArg Run.value hrun, congrArg (·.scenario.node) hrun⟩

theorem Reserves.run_send (hreserves : Reserves manager accepted kept nonce next)
    (hsigned : (manager.build request nonce).sign manager.keys = .ok signed) :
    let sent := run ledger (manager.send request).run ⟨accepted, 0, kept, .untouched⟩
    sent.value = .ok "0x12" ∧ sent.scenario.kept = next ∧
      sent.scenario.node = accepted ++ [signed] := by
  intro sent
  have hsent : sent = _ := Manager.run_send_of_signed hreserves.value_eq hsigned
  rw [hsent]
  exact ⟨rfl, rfl, congrArg (· ++ [signed]) hreserves.node_eq⟩

/-- The wait for a receipt changes nothing. -/
theorem Reserves.run_execute (hreserves : Reserves manager accepted kept nonce next)
    (hsigned : (manager.build request nonce).sign manager.keys = .ok signed) :
    let executed := run ledger (manager.execute request).run ⟨accepted, 0, kept, .untouched⟩
    executed.scenario.kept = next ∧ executed.scenario.node = accepted ++ [signed] := by
  intro executed
  obtain ⟨hvalue, hkept, hsent⟩ := hreserves.run_send hsigned
  have hexecuted : executed = _ := Manager.run_execute_of_ok hvalue
  have huses := manager.uses_waitForReceipt_bind "0x12"
  have hlooks : ∀ effect, watches manager.chain "0x12" effect → ∀ scenario,
      (perform ledger scenario effect).2.node = scenario.node := by
    intro effect hwatches scenario
    cases effect with
    | request query =>
        obtain rfl : query = .receipt manager.chain "0x12" := hwatches
        rfl
    | acquire | release next => exact hwatches.elim
    | isCancelled | pause milliseconds => rfl
  rw [hexecuted, Run.scenario_after, ← hsent, ← hkept]
  exact ⟨kept_run_of_uses huses (fun _ => id) _,
    measure_run_of_uses Scenario.node huses hlooks _⟩

end Ledger

open Transaction (firstPayment secondPayment)

/-- Two tasks that pay, one of which waits for its receipt. -/
def payments (waits : Bool) : Call :=
  if waits then .execute (.transfer .zero 5) else .send (.transfer .zero 5)

theorem submits_payments (waits : Bool) : (payments waits).Submits := by
  cases waits <;> trivial

/-- If the manager reserves the two nonces, each task gets its payment to the node. -/
theorem exists_payments {manager : Manager} {kept later : Option UInt64}
    (hkeys : manager.keys = .one) (hchain : manager.chain = 1)
    (hfirst : Reserves manager [] none 7 kept)
    (hsecond : Reserves manager [firstPayment] kept 8 later) :
    ∃ trace system, Execution ledger.Handles (System.start manager payments none []) trace system ∧
      system.shared.node = [firstPayment, secondPayment] := by
  have hanswers : ∀ node query, ∃ answer, (ledger node query).reply = .ok answer := by
    intro node query
    cases query <;> exact ⟨_, rfl⟩
  have hbuild : ∀ nonce, (manager.build (.transfer .zero 5) nonce).sign manager.keys =
      (Transaction.payment nonce).sign .one := by
    intro nonce
    rw [Manager.build, hkeys, hchain]
    rfl
  have hbrackets : ∀ waits, ((payments waits).operation manager).run.Brackets false :=
    fun waits => (starts_call (submits_payments waits)).brackets
  obtain ⟨hkept, hnode⟩ := hfirst.run_execute ((hbuild 7).trans Transaction.sign_payment)
  obtain ⟨-, -, hlast⟩ := hsecond.run_send ((hbuild 8).trans Transaction.sign_nextPayment)
  have hstart : Execution ledger.Handles (System.start manager payments none []) []
      (System.start manager payments none []) := .start
  obtain ⟨first, middle, hmiddle, ⟨-, hshared⟩, hothers⟩ :=
    canReach_hasRun (i := true) hanswers hstart rfl (hbrackets true) ⟨[], 0, none, .untouched⟩ rfl
  have hbetween : middle.shared = ⟨none, kept, [firstPayment]⟩ := by
    rw [hshared, ← hkept]
    exact congrArg _ hnode
  obtain ⟨second, system, hsystem, ⟨-, hend⟩, -⟩ :=
    canReach_hasRun (i := false) hanswers hmiddle (hothers false nofun) (hbrackets false)
      ⟨[firstPayment], 0, kept, .untouched⟩ hbetween
  refine ⟨_, system, hsystem, ?_⟩
  rw [hend]
  exact hlast

/-- Both payments are accepted, with different nonces, whether the manager asks for each of
them or counts. -/
theorem nonces_distinct_two_tasks :
    let asking : Manager := ⟨.one, 1, .network, .poll 1000 3⟩
    let counting : Manager := ⟨.one, 1, .batch, .poll 1000 3⟩
    (∃ trace system, Execution ledger.Handles (System.start asking payments none []) trace system ∧
      system.shared.node = [firstPayment, secondPayment] ∧
      (system.shared.node.map (·.transaction.nonce)).Nodup) ∧
    ∃ trace system, Execution ledger.Handles (System.start counting payments none []) trace system ∧
      system.shared.node = [firstPayment, secondPayment] ∧
      ((submissions trace).map (·.transaction.nonce)).Nodup := by
  intro asking counting
  have hseven : ∀ manager : Manager, nonceOf (ledger [] manager.question).reply = .ok 7 :=
    fun _ => nonceOf_ledger_nil ⟨_, _, rfl⟩
  have height : nonceOf (ledger [firstPayment] asking.question).reply = .ok 8 :=
    nonceOf_ledger_singleton firstPayment ⟨_, _, rfl⟩
  constructor
  · obtain ⟨trace, system, hexecution, haccepted⟩ := exists_payments rfl rfl
      (reserves_of_reported rfl (hseven asking) (Manager.handOut_network rfl))
      (reserves_of_reported rfl height (Manager.handOut_network rfl))
    exact ⟨trace, system, hexecution, haccepted, (nonces_distinct submits_payments hexecution).2.1
      rfl id 7 (countsAccepted_ledger asking) rfl⟩
  · have hnext : Manager.following 7 = .ok 8 := Manager.following_eq_ok_iff.mpr rfl
    have hlater : Manager.following 8 = .ok 9 := Manager.following_eq_ok_iff.mpr rfl
    obtain ⟨trace, system, hexecution, haccepted⟩ := exists_payments rfl rfl
      (reserves_of_reported rfl (hseven counting) (Manager.handOut_batch rfl hnext))
      (reserves_of_counted rfl (Manager.handOut_batch rfl hlater))
    exact ⟨trace, system, hexecution, haccepted,
      (nonces_distinct submits_payments hexecution).2.2 rfl⟩

end Execution

end ChainClient
