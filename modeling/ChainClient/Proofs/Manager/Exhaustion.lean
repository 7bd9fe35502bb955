import ChainClient.Proofs.Manager.Spending

/-!
# Running out of nonces

There are 2 ^ 64 nonces, and the node may report any of them, so that a manager of the
counting strategy may come to the last one at any call. It moves its count on before it
hands out a nonce, and does not look whether there is one behind: at the last nonce the
program stops, where the call should have reported an error.
-/

namespace ChainClient

open Node Operation Scenario

variable {σ : Type}

/-- The call takes a nonce above all those taken before it, or it reports an error. -/
def Turn.Rises (before : List Turn) (turn : Turn) : Prop :=
  (∃ nonce, turn.nonce? = some nonce ∧ ∀ earlier ∈ before.filterMap Turn.nonce?, earlier < nonce) ∨
    ∃ error, turn.answer = .error error ∧ error.stops = false

/-- How far calls without a reset between them get that count from the first nonce on. -/
structure IsLimited (first : UInt64) (turns : List Turn) : Prop where
  counted : ∀ index nonce, (turns.filterMap Turn.nonce?)[index]? = some nonce →
    nonce.toNat = first.toNat + index
  rises_iff : ∀ before turn after, turns = before ++ turn :: after →
    (turn.Rises before ↔ turn.stops = false)
  /-- The program stops at the call that would take the last nonce. -/
  stops_iff : ∀ before turn after, turns = before ++ turn :: after →
    (turn.stops = true ↔
      ¬ turn.IsRefused ∧ first.toNat + (before.filterMap Turn.nonce?).length = 2 ^ 64 - 1)
  ends : ∀ before turn after, turns = before ++ turn :: after → turn.stops = true → after = []

theorem Turn.Fails.not_rises {error : ClientError} {before : List Turn} {turn : Turn}
    (hturn : turn.Fails error) (hstops : error.stops = true) : ¬ turn.Rises before := by
  rintro (⟨nonce, hnonce, -⟩ | ⟨other, hother, hlasts⟩)
  · cases hturn.unspent.symm.trans hnonce
  · cases hturn.failed.symm.trans hother
    rw [hstops] at hlasts
    cases hlasts

namespace Counts

variable {manager : Manager} {kept : Option UInt64} {before after : List Turn} {turn : Turn}
  {first : UInt64}

/-- The nonce that a call takes is as far behind the first one as nonces were taken. -/
theorem nonce_eq {nonce : UInt64}
    (hrow : ∀ index nonce, ((before ++ turn :: after).filterMap Turn.nonce?)[index]? = some nonce →
      nonce.toNat = first.toNat + index) (hnonce : turn.nonce? = some nonce) :
    nonce.toNat = first.toNat + (before.filterMap Turn.nonce?).length := by
  refine hrow _ nonce ?_
  rw [List.filterMap_append, List.filterMap_cons_some hnonce,
    List.getElem?_append_right (Nat.le_refl _), Nat.sub_self, List.getElem?_cons_zero]

theorem rises_iff (hcounts : Counts manager kept (before ++ turn :: after))
    (hrow : ∀ index nonce, ((before ++ turn :: after).filterMap Turn.nonce?)[index]? = some nonce →
      nonce.toNat = first.toNat + index) : turn.Rises before ↔ turn.stops = false := by
  rcases hcounts.fails_or_takes turn (by simp) with
    ⟨⟨error, hturn⟩, ⟨-, hlasts, -⟩ | ⟨-, hstops⟩⟩ | ⟨-, nonce, -, hturn⟩
  · exact iff_of_true (.inr ⟨error, hturn.failed, hturn.stops_eq ▸ hlasts⟩) hlasts
  · refine iff_of_false (hturn.not_rises (hturn.stops_eq ▸ hstops)) ?_
    rw [hstops]
    exact Bool.noConfusion
  · -- earlier nonces stand in front of this one in the row
    refine iff_of_true (.inl ⟨nonce, hturn.taken, fun earlier hearlier => ?_⟩) hturn.lasts
    obtain ⟨index, hindex, hget⟩ := List.mem_iff_getElem.mp hearlier
    have hfirst : earlier.toNat = first.toNat + index := by
      refine hrow index earlier ?_
      rw [List.filterMap_append, List.getElem?_append_left hindex, List.getElem?_eq_getElem hindex,
        hget]
    rw [UInt64.lt_iff_toNat_lt, hfirst, nonce_eq hrow hturn.taken]
    omega

theorem stops_iff (hcounts : Counts manager none (before ++ turn :: after))
    (hreports :
      ((before ++ turn :: after).flatMap Turn.reports).filterMap Except.toOption = [first])
    (hrow : ∀ index nonce, ((before ++ turn :: after).filterMap Turn.nonce?)[index]? = some nonce →
      nonce.toNat = first.toNat + index) :
    turn.stops = true ↔
      ¬ turn.IsRefused ∧ first.toNat + (before.filterMap Turn.nonce?).length = 2 ^ 64 - 1 := by
  rcases hcounts.fails_or_takes turn (by simp) with
    ⟨-, ⟨hrefused, hlasts, -⟩ | ⟨hasked, hstops⟩⟩ | ⟨-, nonce, hbound, hturn⟩
  · exact iff_of_false (by simp [hlasts]) fun hstopped => hstopped.1 hrefused
  · obtain ⟨-, other, hother, hlast⟩ := hcounts.stopped hstops
    cases hother.symm.trans hreports
    exact iff_of_true hstops ⟨hasked, hlast⟩
  · refine iff_of_false (by simp [hturn.lasts]) fun hstopped => ?_
    have hnonce := nonce_eq hrow hturn.taken
    omega

theorem isLimited {turns : List Turn} (hcounts : Counts manager none turns)
    (hreports : (turns.flatMap Turn.reports).filterMap Except.toOption = [first])
    (hrow : ∀ index nonce, (turns.filterMap Turn.nonce?)[index]? = some nonce →
      nonce.toNat = first.toNat + index) : IsLimited first turns where
  counted := hrow
  rises_iff := by
    rintro before turn after rfl
    exact hcounts.rises_iff hrow
  stops_iff := by
    rintro before turn after rfl
    exact hcounts.stops_iff hreports hrow
  ends := by
    rintro before turn after rfl hstops
    exact (hcounts.stopped hstops).1

/-- A stretch in which the node reports no nonce. -/
theorem refused_of_unreported {turns : List Turn} (hcounts : Counts manager none turns)
    (hreports : (turns.flatMap Turn.reports).filterMap Except.toOption = [])
    (hnonces : turns.filterMap Turn.nonce? = []) :
    ∀ turn ∈ turns, turn.IsRefused ∧ ∃ error, turn.answer = .error error ∧ error.stops = false := by
  intro turn hmem
  rcases hcounts.fails_or_takes turn hmem with
    ⟨⟨error, hturn⟩, ⟨hrefused, hlasts, -⟩ | ⟨-, hstops⟩⟩ | ⟨-, nonce, -, hturn⟩
  · exact ⟨hrefused, error, hturn.failed, hturn.stops_eq ▸ hlasts⟩
  · obtain ⟨before, after, rfl⟩ := List.append_of_mem hmem
    obtain ⟨-, first, hfirst, -⟩ := hcounts.stopped hstops
    cases hreports.symm.trans hfirst
  · cases List.filterMap_eq_nil_iff.mp hnonces turn hmem ▸ hturn.taken

end Counts

namespace Manager

/-- Calls without a reset between them are all refused a nonce, or they count from the nonce
that the node has reported. Each of them takes a nonce above the earlier ones or reports an
error, up to the call that would take the last nonce: there the program stops. -/
theorem isLimited_turns {manager : Manager} (hbatch : manager.strategy = .batch)
    (respond : Responder σ) (calls : List Call) (scenario : Scenario σ)
    (hfresh : scenario.kept = none) :
    ∀ segment ∈ (manager.turns respond calls scenario).splitOnP Turn.isReset,
      (∀ turn ∈ segment,
        turn.IsRefused ∧ ∃ error, turn.answer = .error error ∧ error.stops = false) ∨
      ∃ first, (segment.flatMap Turn.reports).filterMap Except.toOption = [first] ∧
        IsLimited first segment := by
  intro segment hsegment
  have hcounts : Counts manager none segment := counts_of_mem_splitOnP hbatch hfresh hsegment
  rcases hcounts.exists_first with ⟨hreports, hnone⟩ | ⟨first, hreports, hrow⟩
  · exact .inl (hcounts.refused_of_unreported hreports hnone)
  · exact .inr ⟨first, hreports, hcounts.isLimited hreports hrow⟩

/-! ### A node that reports one of the last nonces -/

/-- Two calls for a nonce, and a node that reports the nonce of an account once. -/
def lastCalls (nonce : String) : List Turn :=
  payer.turns Script.respond [.nextNonce, .nextNonce] (paying none [accountReply nonce])

/-- The nonce before the last one is handed out, and then the program stops. -/
theorem isLimited_turns_last_two :
    ∃ first second, lastCalls "18446744073709551614" = [first, second] ∧
      first.nonce? = some 18446744073709551614 ∧ first.Rises [] ∧
      second.stops = true ∧ ¬ second.Rises [first] := by
  have hnonces : (lastCalls "18446744073709551614").map Turn.nonce? =
      [some 18446744073709551614, none] := by decide +kernel
  have hstops : (lastCalls "18446744073709551614").map Turn.stops = [false, true] := by
    decide +kernel
  have hneeds : (lastCalls "18446744073709551614").map Turn.isReset = [false, false] := by
    decide +kernel
  obtain ⟨first, second, hturns⟩ : ∃ first second,
      lastCalls "18446744073709551614" = [first, second] := by
    have hlength := congrArg List.length hnonces
    rw [List.length_map] at hlength
    exact List.length_eq_two.mp hlength
  rw [hturns] at hnonces hstops hneeds
  simp only [List.map_cons, List.map_nil, List.cons.injEq, and_true] at hnonces hstops hneeds
  have hsegment : lastCalls "18446744073709551614" ∈
      (lastCalls "18446744073709551614").splitOnP Turn.isReset := by
    rw [List.splitOnP_eq_singleton (by simp [hturns, hneeds])]
    exact List.mem_singleton_self _
  refine ⟨first, second, hturns, hnonces.1, ?_⟩
  rcases isLimited_turns rfl Script.respond _ _ rfl _ hsegment with
    hrefused | ⟨reported, -, hlimited⟩
  · obtain ⟨-, error, herror, hlasts⟩ := hrefused second (by simp [hturns])
    have hstopped : stops second.answer = true := hstops.2
    rw [herror] at hstopped
    cases hlasts.symm.trans hstopped
  · have hfirst := hlimited.rises_iff [] first [second] hturns
    have hsecond := hlimited.rises_iff [first] second [] hturns
    exact ⟨hfirst.mpr hstops.1, hstops.2, fun hrises => by simp [hsecond.mp hrises] at hstops⟩

/-- Where the last nonce is reported, the first call stops the program: it hands out no
nonce, and reports no error. -/
theorem not_rises_last :
    ∃ turn, lastCalls "18446744073709551615" = [turn] ∧
      turn.reports = [.ok 18446744073709551615] ∧ turn.stops = true ∧ ¬ turn.Rises [] := by
  have hnonces : (lastCalls "18446744073709551615").map Turn.nonce? = [none] := by decide +kernel
  have hstops : (lastCalls "18446744073709551615").map Turn.stops = [true] := by decide +kernel
  have hreports : (lastCalls "18446744073709551615").map Turn.reports =
      [[.ok 18446744073709551615]] := by decide +kernel
  obtain ⟨turn, hturns⟩ : ∃ turn, lastCalls "18446744073709551615" = [turn] := by
    have hlength := congrArg List.length hnonces
    rw [List.length_map] at hlength
    exact List.length_eq_one_iff.mp hlength
  rw [hturns] at hnonces hstops hreports
  simp only [List.map_cons, List.map_nil, List.cons.injEq, and_true] at hnonces hstops hreports
  refine ⟨turn, hturns, hreports, hstops, ?_⟩
  rintro (⟨nonce, hnonce, -⟩ | ⟨error, herror, hlasts⟩)
  · cases hnonces.symm.trans hnonce
  · have hstopped : stops turn.answer = true := hstops
    rw [herror] at hstopped
    cases hlasts.symm.trans hstopped

end Manager

end ChainClient
