import Mathlib.Tactic.Common

/-! # Ends of actions

An action on a state ends with a value or with a fault, and with some state in both cases. What
holds then is read off the parts of the action.
-/
namespace CallBridge

variable {ε σ α β : Type}

/-- However the action ends: a value satisfies `ok`, a fault `bad`, together with the state
behind. -/
@[irreducible]
def Ends (x : ExceptT ε (StateM σ) α) (s : σ) (ok : α → σ → Prop) (bad : ε → σ → Prop) : Prop :=
  match x.run.run s with
  | (.ok a, s') => ok a s'
  | (.error e, s') => bad e s'

variable {s : σ} {ok : α → σ → Prop} {bad : ε → σ → Prop}

theorem Ends.mono {x : ExceptT ε (StateM σ) α} {ok' : α → σ → Prop} {bad' : ε → σ → Prop}
    (h : Ends x s ok bad) (hok : ∀ a s', ok a s' → ok' a s')
    (hbad : ∀ e s', bad e s' → bad' e s') : Ends x s ok' bad' := by
  unfold Ends at h ⊢
  split at h
  · exact hok _ _ h
  · exact hbad _ _ h

theorem Ends.and {x : ExceptT ε (StateM σ) α} {ok' : α → σ → Prop} {bad' : ε → σ → Prop}
    (h : Ends x s ok bad) (h' : Ends x s ok' bad') :
    Ends x s (fun a s' => ok a s' ∧ ok' a s') fun e s' => bad e s' ∧ bad' e s' := by
  unfold Ends at h h' ⊢
  cases hx : x.run.run s with
  | mk r s' =>
    rw [hx] at h h'
    cases r with
    | ok a => exact ⟨h, h'⟩
    | error e => exact ⟨h, h'⟩

theorem Ends.exists_ok {x : ExceptT ε (StateM σ) α} (h : Ends x s ok fun _ _ => False) :
    ∃ a s', x.run.run s = (.ok a, s') ∧ ok a s' := by
  unfold Ends at h
  cases hx : x.run.run s with
  | mk r s' =>
    rw [hx] at h
    cases r with
    | ok a => exact ⟨a, s', rfl, h⟩
    | error e => exact h.elim

theorem ends_pure {a : α} (h : ok a s) : Ends (pure a) s ok bad := by
  unfold Ends
  exact h

theorem ends_throw {e : ε} (h : bad e s) : Ends (throw e) s ok bad := by
  unfold Ends
  exact h

theorem ends_get {ok : σ → σ → Prop} (h : ok s s) : Ends get s ok bad := by
  unfold Ends
  exact h

theorem ends_modify {ok : PUnit → σ → Prop} {f : σ → σ} (h : ok ⟨⟩ (f s)) :
    Ends (modify f) s ok bad := by
  unfold Ends
  exact h

theorem ends_liftM {x : Except ε α} (hok : ∀ a, x = .ok a → ok a s)
    (hbad : ∀ e, x = .error e → bad e s) : Ends (liftM x) s ok bad := by
  unfold Ends
  cases x with
  | ok a => exact hok a rfl
  | error e => exact hbad e rfl

theorem ends_bind {x : ExceptT ε (StateM σ) β} {f : β → ExceptT ε (StateM σ) α}
    (h : Ends x s (fun b s' => Ends (f b) s' ok bad) bad) : Ends (x >>= f) s ok bad := by
  unfold Ends at h ⊢
  have hrun : (x >>= f).run.run s = match x.run.run s with
      | (.ok b, s') => (f b).run.run s'
      | (.error e, s') => (.error e, s') := by
    rw [ExceptT.run_bind, StateT.run_bind]
    obtain ⟨r, s'⟩ := x.run.run s
    cases r <;> rfl
  rw [hrun]
  split at h
  · exact h
  · exact h

theorem ends_tryCatch {x : ExceptT ε (StateM σ) α} {f : ε → ExceptT ε (StateM σ) α}
    (h : Ends x s ok fun e s' => Ends (f e) s' ok bad) : Ends (tryCatch x f) s ok bad := by
  unfold Ends at h ⊢
  have hrun : (tryCatch x f).run.run s = match x.run.run s with
      | (.ok a, s') => (.ok a, s')
      | (.error e, s') => (f e).run.run s' := by
    change (x.run >>= fun r => match r with
      | .ok a => pure (.ok a)
      | .error e => (f e).run).run s = _
    rw [StateT.run_bind]
    obtain ⟨r, s'⟩ := x.run.run s
    cases r <;> rfl
  rw [hrun]
  split at h
  · exact h
  · exact h

/-- A sequence of actions goes on while each one keeps an invariant that speaks of the elements
handled so far, and what holds when one of them ends with a fault holds of the sequence. -/
theorem ends_mapM {f : α → ExceptT ε (StateM σ) β} {P : List α → σ → Prop} {xs : List α}
    (hstart : P [] s)
    (hstep : ∀ pre x post s, xs = pre ++ x :: post → P pre s →
      Ends (f x) s (fun _ s' => P (pre ++ [x]) s') bad) :
    Ends (xs.mapM f) s (fun _ s' => P xs s') bad := by
  have hgen : ∀ rest pre s, xs = pre ++ rest → P pre s →
      Ends (rest.mapM f) s (fun _ s' => P xs s') bad := by
    intro rest
    induction rest with
    | nil =>
      intro pre s hxs hp
      have hpre : xs = pre := by simpa using hxs
      rw [hpre]
      exact ends_pure hp
    | cons x rest ih =>
      intro pre s hxs hp
      rw [List.mapM_cons]
      refine ends_bind ((hstep pre x rest s hxs hp).mono (fun _ s' hs' => ?_) fun _ _ h => h)
      refine ends_bind ((ih (pre ++ [x]) s' (by simp [hxs]) hs').mono (fun _ _ h => ?_) fun _ _ h => h)
      exact ends_pure h
  exact hgen xs [] s rfl hstart

end CallBridge
