import Rask.Teardown

/-! # The Server Starts and Ends

    What fair behaviours of the server come to:

    * **`starts_up`**: main gets to `sigsuspend`, or the process ends, or
      main has cancelled a watcher that was never created.
    * **`stopped_terminates`**: a `SIGINT` or a `SIGTERM` that finds main in
      `sigsuspend` ends the process (`Rask.Destroying` says how).
-/

namespace Rask

/-- Main is on its way to `sigsuspend`. -/
def MainPc.SetsUp : MainPc → Prop
  | .blocking | .ini | .allocating | .creating _ | .creating_watcher | .unblocking | .installing_int
  | .installing_term | .suspending => True
  | _ => False

/-- The steps to `sigsuspend`. -/
def MainPc.to_suspend : MainPc → Nat
  | .blocking => INITIAL_THREADS + 8
  | .ini => INITIAL_THREADS + 7
  | .allocating => INITIAL_THREADS + 6
  | .creating i => INITIAL_THREADS - i + 5
  | .creating_watcher => 4
  | .unblocking => 3
  | .installing_int => 2
  | .installing_term => 1
  | _ => 0

namespace Server

section main
variable {max_connections : Int} {b : (system max_connections).Behaviour} {s s' : Server}

/-- The set-up comes to its end, or a call of it fails. -/
theorem Fair.sets_up (hfair : Fair b) :
    b.LeadsTo (fun s => s.main.SetsUp)
      (fun s => s.main = .suspended ∨ s.main.Abandons ∨ s.halted = true) := by
  have hsets : b.LeadsTo (fun s => s.main.SetsUp)
      (fun s => (s.main = .suspended ∨ s.main.Abandons ∨ s.halted = true) ∨ s.halted = true) := by
    apply hfair.main_goes_on MainPc.SetsUp _ MainPc.to_suspend
    · intro h
      exact h
    · intro s ok s' hs hown hsets
      have hcreating := (entriesInv (reachable_any_readings hs)).2.creating
      cases hown with
      | suspend _ => exact Or.inl (Or.inl rfl)
      | no_pool _ | create_fails _ _ _ | create_watcher_fails _ | set_up_fails _ _ =>
        exact Or.inl (Or.inr (Or.inl trivial))
      | create i hmain hi =>
        -- `creating i` is reached for `i` at most the number of threads
        have hn := hcreating (hmain ▸ trivial) (by rw [hmain]; exact id)
        refine Or.inr ⟨trivial, ?_⟩
        simp only [MainPc.to_suspend, hmain]
        omega
      | allocate_fails _ _ => exact Or.inl (Or.inr (Or.inr (by simp [halted])))
      | created i hmain _ | block hmain | ini hmain | allocate hmain _ _ | create_watcher hmain
      | unblock hmain
      | install_int hmain | install_term hmain =>
        refine Or.inr ⟨trivial, ?_⟩
        simp only [MainPc.to_suspend, hmain]
        omega
      | destroy type pc hmain _ _ => simp [hmain, MainPc.SetsUp] at hsets
      | awake hmain | fail hmain | finish hmain => simp [hmain, MainPc.SetsUp] at hsets
    · intro s hsets
      cases hmain : s.main with
      | ini =>
        by_cases hmax : 1 ≤ max_connections <;> simp [main_next, hmain, hmax]
      | creating i =>
        by_cases hi : i < s.n_spawned_threads <;> simp [main_next, hmain, hi]
      | blocking | allocating | creating_watcher | unblocking | installing_int | installing_term
      | suspending => simp [main_next, hmain]
      | _ => simp [hmain, MainPc.SetsUp] at hsets
  exact hsets.mono (fun _ _ => id) fun _ _ h => h.elim id fun hhalted => Or.inr (Or.inr hhalted)

/-- **Main comes to `sigsuspend`, or the process ends**, in every fair
    behaviour and whatever the system calls of the set-up return, unless main
    cancels a watcher that was never created. -/
theorem starts_up (hfair : Fair b) :
    ∃ n, (b.state n).main = .suspended ∨ (b.state n).terminated = true ∨
      ((b.state n).undefined = true ∧ (b.state n).watcher = .absent) := by
  have hend : ∀ n, (b.state n).halted = true → (b.state n).terminated = true ∨
      ((b.state n).undefined = true ∧ (b.state n).watcher = .absent) := by
    intro n hhalted
    rcases Bool.or_eq_true_iff.mp hhalted with hterminated | hundefined
    · exact Or.inl hterminated
    · exact Or.inr ⟨hundefined, unsetInv (LTS.System.Behaviour.reachable (b := b) n) hundefined⟩
  have hstart : (b.state 0).main.SetsUp := by
    have hinit : b.state 0 = start := b.init
    rw [hinit]
    trivial
  obtain ⟨m, _, hsuspended | habandons | hhalted⟩ := hfair.sets_up 0 hstart
  · exact ⟨m, Or.inl hsuspended⟩
  · obtain ⟨n, _, hhalted⟩ := abandoned_halts hfair m habandons
    exact ⟨n, Or.inr (hend n hhalted)⟩
  · exact ⟨m, Or.inr (hend m hhalted)⟩

/-- A behaviour that grows and shrinks the pool, and ends with a `SIGINT`
    after main has joined the workers. -/
theorem stopping_behaviour : ∃ (b : (system 200).Behaviour) (n : Nat), Fair b ∧
    ConnectionsEnd b ∧ ((b.state n).main = .suspended ∧ (b.state n).pending .SIGINT = true ∧
      (b.state n).handlers .SIGURG = .handler) ∧
    ∃ k, n ≤ k ∧ (b.state k).main = .destroying .SOFT .freeing := by
  obtain ⟨steps, steps', s, s', hrun, hrun', hterminated, hstopped, _, _, x, hx, hfreeing⟩ :=
    shrinks_and_stops
  have hfirst := hrun.of_guard.1
  have hsecond := hrun'.of_guard.1
  obtain ⟨hfair, hend⟩ := fair_of_halted (hfirst.append hsecond) (by simp [halted, hterminated])
  refine ⟨_, steps.length, hfair, hend, ?_, ?_⟩
  · rw [hfirst.behaviour_append hsecond rfl]
    exact hstopped
  · obtain ⟨k, hk, hstate⟩ := hfirst.behaviour_mem hsecond rfl hx
    exact ⟨k, hk, hstate ▸ hfreeing⟩

theorem starts_up_stopping_behaviour :
    ∃ b : (system 200).Behaviour, Fair b ∧
      ∃ n, (b.state n).main = .suspended ∨ (b.state n).terminated = true ∨
        ((b.state n).undefined = true ∧ (b.state n).watcher = .absent) := by
  obtain ⟨b, _, hfair, _⟩ := stopping_behaviour
  exact ⟨b, hfair, starts_up hfair⟩

/-- Main is in `sigsuspend`, a signal is on its way to it, and some worker
    has installed the handler of `SIGURG`. -/
def Stopped (sig : Signal) (s : Server) : Prop :=
  s.main = .suspended ∧ s.pending sig = true ∧ s.handlers .SIGURG = .handler

/-- Only the signal ends the waiting. -/
theorem stopped_unless {max_connections : Int} (sig : Signal) :
    (system max_connections).Unless (Stopped sig)
      (fun s => (s.main = .awake ∧ s.handlers .SIGURG = .handler) ∨ s.halted = true) := by
  intro s l s' hs hnext ⟨hmain, hpending, hhandler⟩
  obtain ⟨_, hstep⟩ := next_eq_some.mp hnext
  have hhandler' := step_handler hstep hhandler
  rcases step_parties hstep with ⟨ok, _, hown⟩ | ⟨hwatcher, _⟩ | ⟨t, hworker⟩ | henvironment
  · cases hown with
    | destroy type pc hpc _ _ => simp [hmain] at hpc
    | no_pool hpc | set_up_fails _ hpc => simp [hmain] at hpc
    | _ => simp_all
  · refine Or.inl ⟨?_, ?_, hhandler'⟩ <;> cases hwatcher <;> assumption
  · refine Or.inl ⟨?_, ?_, hhandler'⟩ <;> cases hworker <;> assumption
  · cases henvironment with
    | deliver sig' _ _ _ => exact Or.inr (Or.inl ⟨by simp [hmain], hhandler⟩)
    | terminate sig' _ _ _ => exact Or.inr (Or.inr rfl)
    | signal sig' _ =>
      refine Or.inl ⟨hmain, ?_, hhandler⟩
      by_cases hsame : sig = sig'
      · simp [hsame]
      · simp [Function.update_of_ne hsame, hpending]
    | _ => exact Or.inl ⟨hmain, hpending, hhandler⟩

/-- The signal wakes main up. -/
theorem Fair.stopped_wakes (hfair : Fair b) {sig : Signal} (hsig : sig = .SIGINT ∨ sig = .SIGTERM) :
    b.LeadsTo (Stopped sig) (fun s => (s.main = .awake ∧ s.handlers .SIGURG = .handler) ∨
      s.halted = true) := by
  apply (hfair.deliver sig).wf1 (stopped_unless sig)
  · rintro s l s' hs hnext hstopped rfl
    obtain ⟨_, hstep⟩ := next_eq_some.mp hnext
    rcases stopped_unless sig s _ s' hs hnext hstopped with ⟨hmain', _⟩ | hwoken
    · cases deliver_step hstep with
      | deliver _ _ _ _ => simp [hstopped.1] at hmain'
      | terminate _ _ _ _ => exact Or.inr rfl
    · exact hwoken
  · intro s hs ⟨hmain, hpending, _⟩
    cases hrunning : s.halted with
    | true => exact Or.inr (Or.inr rfl)
    | false =>
      have hlistens := listening hs (hmain ▸ trivial)
      have hopen : s.main_blocked sig = false := by
        rcases hsig with rfl | rfl
        · exact hlistens.1
        · exact hlistens.2
      have hnext : ∃ s', s.deliver_next sig = some s' := by
        by_cases hdefault : s.handlers sig = .handler <;>
          simp [deliver_next, hpending, hopen, hsig, hdefault]
      obtain ⟨s', hnext⟩ := hnext
      exact Or.inl (enabled_of_step hrunning rfl hnext)

/-- Main wakes up and comes through the destroy. -/
theorem Fair.stopped_halts (hfair : Fair b) (hend : ConnectionsEnd b) {sig : Signal}
    (hsig : sig = .SIGINT ∨ sig = .SIGTERM) :
    b.LeadsTo (Stopped sig) (fun s => s.halted = true) := by
  have hhalted : b.LeadsTo (fun s => s.halted = true) (fun s => s.halted = true) :=
    .of_imp fun _ _ => id
  have hdestroy : b.LeadsTo (fun s => (∃ type, s.main = .destroying type .locking) ∧
      s.handlers .SIGURG = .handler) (fun s => s.halted = true) := by
    intro n ⟨⟨type, hmain⟩, hhandler⟩
    have hcloses : b.LeadsTo (Destroying type .locking) (fun s => s.halted = true) :=
      (hfair.destroy_ends (fun _ => hend) .locking).trans hfair.freed_halts
    exact hcloses n (Destroying.begin hmain fun _ => hhandler)
  have hkept : (system max_connections).Unless (fun s => s.handlers .SIGURG = .handler)
      (fun s => s.halted = true) := by
    intro s l s' _ hnext hhandler
    exact Or.inl (step_handler (next_eq_some.mp hnext).2 hhandler)
  have hawake : b.LeadsTo (fun s => s.main = .awake ∧ s.handlers .SIGURG = .handler)
      (fun s => s.halted = true) := by
    apply (hfair.wakes.psp hkept).trans
    intro n h
    rcases h with ⟨hdestroying | hended, hhandler⟩ | hended
    · exact hdestroy n ⟨hdestroying, hhandler⟩
    · exact ⟨n, Nat.le_refl n, hended⟩
    · exact ⟨n, Nat.le_refl n, hended⟩
  exact (hfair.stopped_wakes hsig).trans (hawake.or hhalted)

/-- A watcher that was created stays one. -/
theorem step_watched {l : Label} (h : s.step max_connections l = some s')
    (hwatched : s.watcher ≠ .absent) : s'.watcher ≠ .absent := by
  rcases step_parties h with ⟨ok, _, hmain⟩ | ⟨hwatcher, _⟩ | ⟨t, hworker⟩ | henvironment
  · cases hmain with
    | create_watcher hmain => exact nofun
    | destroy type pc hmain s' hstep => cases hstep <;> exact hwatched
    | _ => exact hwatched
  · have hmoved : ∀ {w : WatcherPc}, w ≠ .absent → w ≠ .absent := id
    cases hwatcher <;> exact hmoved nofun
  · rw [hworker.moved.watcher]
    exact hwatched
  · rw [henvironment.aside.watcher]
    exact hwatched

/-- Main creates the watcher before it unblocks its signals. -/
theorem watched (h : (system max_connections).Reachable s) :
    s.main = .unblocking ∨ s.main.Listens → s.watcher ≠ .absent := by
  have hstep : ∀ s l s', (s.main = .unblocking ∨ s.main.Listens → s.watcher ≠ .absent) →
      (system max_connections).step s l s' →
      (s'.main = .unblocking ∨ s'.main.Listens → s'.watcher ≠ .absent) := by
    intro s l s' hinv hnext hlate
    obtain ⟨_, hstep⟩ := next_eq_some.mp hnext
    -- either the watcher was there before, or this step of main has created it
    by_cases hbefore : s.main = .unblocking ∨ s.main.Listens
    · exact step_watched hstep (hinv hbefore)
    · rcases step_origin hstep with ⟨ok, _, hmain⟩ | hwatcher | hdeliver | hother
      · cases hmain with
        | create_watcher _ => exact nofun
        | destroy type pc hmain s' hdestroy =>
          cases hdestroy with
          | free => cases hattrs : s.attrs_freed <;> simp [hattrs, MainPc.Listens] at hlate
          | cancel_unset _ => exact absurd hlate hbefore
          | _ => simp [MainPc.Listens] at hlate
        | allocate_fails _ _ => exact absurd hlate hbefore
        | unblock hmain => exact absurd (Or.inl hmain) hbefore
        | install_int hmain | install_term hmain | suspend hmain =>
          exact absurd (Or.inr (hmain ▸ trivial)) hbefore
        | _ => simp [MainPc.Listens] at hlate
      · have hmain : s'.main = s.main := by cases hwatcher <;> rfl
        exact absurd (hmain ▸ hlate) hbefore
      · rcases hdeliver.main with hsame | ⟨_, hawake⟩
        · exact absurd (hsame ▸ hlate) hbefore
        · simp [hawake, MainPc.Listens] at hlate
      · exact absurd (hother.main ▸ hlate) hbefore
  apply LTS.System.invariant _ hstep h
  rintro s rfl hlate
  simp [start, MainPc.Listens] at hlate

/-- **`SIGINT` and `SIGTERM` stop the server** if they find main in
    `sigsuspend`: main wakes up, gets `watcher_mutex`, and every worker that
    it cancels or signals exits. For `SIGINT` the connections have to end. -/
theorem stopped_terminates (hfair : Fair b) (hend : ConnectionsEnd b) {sig : Signal}
    (hsig : sig = .SIGINT ∨ sig = .SIGTERM) :
    b.LeadsTo (Stopped sig) (fun s => s.terminated = true) := by
  have hkept : (system max_connections).Unless (fun s => s.watcher ≠ .absent) fun _ => False := by
    intro s l s' _ hnext hwatched
    exact Or.inl (step_watched (next_eq_some.mp hnext).2 hwatched)
  apply ((hfair.stopped_halts hend hsig).psp hkept).mono
  · exact fun s hs h => ⟨h, watched hs (Or.inr (h.1 ▸ trivial))⟩
  · intro s hs h
    obtain ⟨hhalted, hwatched⟩ := h.resolve_right id
    -- there is a watcher to cancel
    have hdefined : s.undefined = false := Bool.not_eq_true _ ▸ fun h => hwatched (unsetInv hs h)
    simpa [halted, hdefined] using hhalted

theorem stopped_terminates_stopping_behaviour :
    ∃ (b : (system 200).Behaviour) (n m : Nat), Fair b ∧ ConnectionsEnd b ∧
      Stopped .SIGINT (b.state n) ∧ (∃ k, n ≤ k ∧ (b.state k).main = .destroying .SOFT .freeing) ∧
      n ≤ m ∧ (b.state m).terminated = true := by
  obtain ⟨b, n, hfair, hend, hstopped, hfreeing⟩ := stopping_behaviour
  obtain ⟨m, hm, hterminated⟩ := stopped_terminates hfair hend (Or.inl rfl) n hstopped
  exact ⟨b, n, m, hfair, hend, hstopped, hfreeing, hm, hterminated⟩

end main

end Server

end Rask
