import Mathlib.Tactic.Common

/-!
# Sessions with commits in the middle

A session works on its own view of the state; `commit` makes the view durable, an exception
leaves it and what was committed before as they are.

* `Session`  what is durable and what the session sees;
* `Tx`       a program of a session that may raise;
* `settle`   the caller's end: commit after a return, roll back after an exception;
* `Raises`   what a program may raise;
* `Keeps`    a property of states that a program keeps, in the view and in what is durable;
* `Silent`, `Publishes`  how little of its work a program makes durable;
* `Returns`  the program raises nothing.
-/

structure Session (σ : Type) where
  durable : σ
  work : σ

/-- a program of a session that returns a value or raises -/
def Tx (σ ε α : Type) := Session σ → Except ε α × Session σ

namespace Tx

variable {σ ε α β : Type}

protected def pure (a : α) : Tx σ ε α := fun s => (.ok a, s)

protected def bind (m : Tx σ ε α) (f : α → Tx σ ε β) : Tx σ ε β := fun s =>
  match m s with
  | (.ok a, s') => f a s'
  | (.error e, s') => (.error e, s')

instance : Monad (Tx σ ε) where
  pure := Tx.pure
  bind := Tx.bind

/-- raises -/
def raise (e : ε) : Tx σ ε α := fun s => (.error e, s)

/-- a statement: reads the view, may change it, may raise without a change -/
def flush (f : σ → Except ε (α × σ)) : Tx σ ε α := fun s =>
  match f s.work with
  | .ok (a, w) => (.ok a, { s with work := w })
  | .error e => (.error e, s)

/-- `except`: what the program raises goes to the handler, with what the session sees by then -/
def handle (m : Tx σ ε α) (h : ε → Tx σ ε α) : Tx σ ε α := fun s =>
  match m s with
  | (.ok a, s') => (.ok a, s')
  | (.error e, s') => h e s'

/-- a program on a component of the state -/
def zoom {τ : Type} (get : σ → τ) (set : σ → τ → σ) (m : Tx τ ε α) : Tx σ ε α := fun s =>
  let r := m ⟨get s.durable, get s.work⟩
  (r.1, ⟨set s.durable r.2.durable, set s.work r.2.work⟩)

/-- a program whose exceptions get another type -/
def mapErr {ε' : Type} (f : ε → ε') (m : Tx σ ε α) : Tx σ ε' α := fun s =>
  match m s with
  | (.ok a, s') => (.ok a, s')
  | (.error e, s') => (.error (f e), s')

/-- everything flushed so far becomes durable -/
def commit : Tx σ ε Unit := fun s => (.ok (), { s with durable := s.work })

/-- a session opened on the state `s` -/
def opened (s : σ) : Session σ := ⟨s, s⟩

/-- the caller commits what returned and rolls back what raised -/
def settle (r : Except ε α × Session σ) : σ :=
  match r.1 with
  | .ok _ => r.2.work
  | .error _ => r.2.durable

theorem bind_apply (m : Tx σ ε α) (f : α → Tx σ ε β) (s : Session σ) :
    (m >>= f) s = match m s with
      | (.ok a, s') => f a s'
      | (.error e, s') => (.error e, s') := rfl

theorem bind_ok {m : Tx σ ε α} {f : α → Tx σ ε β} {s s' : Session σ} {a : α}
    (h : m s = (.ok a, s')) : (m >>= f) s = f a s' := by
  rw [bind_apply, h]

theorem bind_error {m : Tx σ ε α} {f : α → Tx σ ε β} {s s' : Session σ} {e : ε}
    (h : m s = (.error e, s')) : (m >>= f) s = (.error e, s') := by
  rw [bind_apply, h]

theorem handle_ok {m : Tx σ ε α} {h : ε → Tx σ ε α} {s s' : Session σ} {a : α}
    (hm : m s = (.ok a, s')) : handle m h s = (.ok a, s') := by
  rw [handle, hm]

theorem handle_error {m : Tx σ ε α} {h : ε → Tx σ ε α} {s s' : Session σ} {e : ε}
    (hm : m s = (.error e, s')) : handle m h s = h e s' := by
  rw [handle, hm]

theorem flush_ok {f : σ → Except ε (α × σ)} {s : Session σ} {a : α} {w : σ}
    (h : f s.work = .ok (a, w)) : flush f s = (.ok a, { s with work := w }) := by
  rw [flush, h]

theorem flush_error {f : σ → Except ε (α × σ)} {s : Session σ} {e : ε}
    (h : f s.work = .error e) : flush f s = (.error e, s) := by
  rw [flush, h]

/-! ## what a program keeps -/

/-- `P` survives the program, in the view and in what is durable, whether it returns or raises -/
def Keeps (P : σ → Prop) (m : Tx σ ε α) : Prop :=
  ∀ s, P s.durable → P s.work → P (m s).2.durable ∧ P (m s).2.work

variable {P : σ → Prop}

theorem Keeps.pure (a : α) : Keeps P (pure a : Tx σ ε α) := fun _ hd hw => ⟨hd, hw⟩

theorem Keeps.raise (e : ε) : Keeps P (raise e : Tx σ ε α) := fun _ hd hw => ⟨hd, hw⟩

theorem Keeps.commit : Keeps P (commit : Tx σ ε Unit) := fun _ _ hw => ⟨hw, hw⟩

theorem Keeps.flush {f : σ → Except ε (α × σ)}
    (h : ∀ w a w', P w → f w = .ok (a, w') → P w') : Keeps P (flush f) := by
  intro s hd hw
  cases hf : f s.work with
  | ok r =>
    obtain ⟨a, w⟩ := r
    rw [flush_ok hf]
    exact ⟨hd, h _ _ _ hw hf⟩
  | error e =>
    rw [flush_error hf]
    exact ⟨hd, hw⟩

theorem Keeps.bind {m : Tx σ ε α} {f : α → Tx σ ε β} (hm : Keeps P m) (hf : ∀ a, Keeps P (f a)) :
    Keeps P (m >>= f) := by
  intro s hd hw
  obtain ⟨hd', hw'⟩ := hm s hd hw
  rw [bind_apply]
  rcases hr : m s with ⟨r, s'⟩
  rw [hr] at hd' hw'
  cases r with
  | ok a => exact hf a s' hd' hw'
  | error e => exact ⟨hd', hw'⟩

/-- a program on a component that `P` does not look at -/
theorem Keeps.zoom {τ : Type} {get : σ → τ} {set : σ → τ → σ} (m : Tx τ ε α)
    (hset : ∀ s t, P s → P (set s t)) : Keeps P (zoom get set m) :=
  fun _ hd hw => ⟨hset _ _ hd, hset _ _ hw⟩

theorem Keeps.mapErr {ε' : Type} {f : ε → ε'} {m : Tx σ ε α} (hm : Keeps P m) :
    Keeps P (mapErr f m) := by
  intro s hd hw
  have hms := hm s hd hw
  unfold Tx.mapErr
  rcases hr : m s with ⟨r, s'⟩
  rw [hr] at hms
  cases r with
  | ok a => exact hms
  | error e => exact hms

/-- what the caller leaves behind -/
theorem Keeps.settle {m : Tx σ ε α} (hm : Keeps P m) {s : σ} (h : P s) :
    P (settle (m (opened s))) := by
  obtain ⟨hd, hw⟩ := hm (opened s) h h
  unfold Tx.settle
  split
  · exact hw
  · exact hd

/-! ## what a program raises -/

/-- whatever the program raises is an `E` -/
def Raises (E : ε → Prop) (m : Tx σ ε α) : Prop := ∀ s e, (m s).1 = .error e → E e

variable {E : ε → Prop}

theorem Raises.pure (a : α) : Raises E (pure a : Tx σ ε α) := by
  intro s e h
  cases h

theorem Raises.raise {e : ε} (he : E e) : Raises E (raise e : Tx σ ε α) := by
  intro s e' h
  cases h
  exact he

theorem Raises.flush {f : σ → Except ε (α × σ)} (h : ∀ w e, f w = .error e → E e) :
    Raises E (flush f) := by
  intro s e he
  unfold Tx.flush at he
  split at he
  · cases he
  · rename_i heq
    cases he
    exact h _ _ heq

theorem Raises.bind {m : Tx σ ε α} {f : α → Tx σ ε β} (hm : Raises E m) (hf : ∀ a, Raises E (f a)) :
    Raises E (m >>= f) := by
  intro s e h
  rw [bind_apply] at h
  rcases hr : m s with ⟨r, s'⟩
  rw [hr] at h
  cases r with
  | ok a => exact hf a s' e h
  | error e' =>
    cases h
    exact hm s e (by rw [hr])

/-- renamed exceptions -/
theorem Raises.mapErr {ε' : Type} {E : ε' → Prop} {f : ε → ε'} (h : ∀ e, E (f e)) (m : Tx σ ε α) :
    Raises E (mapErr f m) := by
  intro s e he
  unfold Tx.mapErr at he
  split at he
  · cases he
  · cases he
    exact h _

/-! ## what a program makes durable -/

/-- the program commits nothing -/
def Silent (m : Tx σ ε α) : Prop := ∀ s, (m s).2.durable = s.durable

/-- what is durable in the end is what was durable before, or that changed by `g` -/
def Publishes (g : σ → σ) (m : Tx σ ε α) : Prop :=
  ∀ s, (m s).2.durable = s.durable ∨ (m s).2.durable = g s.durable

variable {g : σ → σ}

theorem Silent.pure (a : α) : Silent (pure a : Tx σ ε α) := fun _ => rfl

theorem Silent.raise (e : ε) : Silent (raise e : Tx σ ε α) := fun _ => rfl

theorem Silent.flush (f : σ → Except ε (α × σ)) : Silent (flush f) := by
  intro s
  unfold Tx.flush
  split <;> rfl

theorem Silent.bind {m : Tx σ ε α} {f : α → Tx σ ε β} (hm : Silent m) (hf : ∀ a, Silent (f a)) :
    Silent (m >>= f) := by
  intro s
  have hms := hm s
  rw [bind_apply]
  rcases hr : m s with ⟨r, s'⟩
  rw [hr] at hms
  cases r with
  | ok a => exact (hf a s').trans hms
  | error e => exact hms

/-- a silent program before one that publishes -/
theorem Silent.before {m : Tx σ ε α} {f : α → Tx σ ε β} (hm : Silent m)
    (hf : ∀ a, Publishes g (f a)) : Publishes g (m >>= f) := by
  intro s
  have hms := hm s
  rw [bind_apply]
  rcases hr : m s with ⟨r, s'⟩
  rw [hr] at hms
  cases r with
  | ok a =>
    rw [← hms]
    exact hf a s'
  | error e => exact .inl hms

/-- a silent program after one that publishes -/
theorem Publishes.bind {m : Tx σ ε α} {f : α → Tx σ ε β} (hm : Publishes g m)
    (hf : ∀ a, Silent (f a)) : Publishes g (m >>= f) := by
  intro s
  have hms := hm s
  rw [bind_apply]
  rcases hr : m s with ⟨r, s'⟩
  rw [hr] at hms
  cases r with
  | ok a =>
    rw [← hf a s'] at hms
    exact hms
  | error e => exact hms

theorem Silent.zoom {τ : Type} {get : σ → τ} {set : σ → τ → σ} {m : Tx τ ε α} (hm : Silent m)
    (hset : ∀ s, set s (get s) = s) : Silent (zoom get set m) := by
  intro s
  have h : (m ⟨get s.durable, get s.work⟩).2.durable = get s.durable := hm _
  exact (congrArg (set s.durable) h).trans (hset _)

/-! ## programs that return -/

/-- the program returns -/
def Returns (m : Tx σ ε α) (s : Session σ) : Prop := ∃ a, (m s).1 = .ok a

theorem returns_pure (a : α) (s : Session σ) : Returns (pure a : Tx σ ε α) s := ⟨a, rfl⟩

theorem returns_flush {f : σ → Except ε (α × σ)} {m : α → Tx σ ε β} {s : Session σ} :
    Returns (flush f >>= m) s ↔
      ∃ a w, f s.work = .ok (a, w) ∧ Returns (m a) { s with work := w } := by
  unfold Returns
  cases hf : f s.work with
  | ok p =>
    obtain ⟨a, w⟩ := p
    rw [bind_ok (flush_ok hf)]
    constructor
    · exact fun h => ⟨a, w, rfl, h⟩
    · rintro ⟨a', w', h, hm⟩
      cases h
      exact hm
  | error e =>
    rw [bind_error (flush_error hf)]
    simp

/-- a statement before the rest of a program that returns -/
theorem flush_bind_ok {f : σ → Except ε (α × σ)} {m : α → Tx σ ε β} {s s' : Session σ} {b : β} :
    (flush f >>= m) s = (.ok b, s') ↔
      ∃ a w, f s.work = .ok (a, w) ∧ m a { s with work := w } = (.ok b, s') := by
  cases hf : f s.work with
  | ok p =>
    obtain ⟨a, w⟩ := p
    rw [bind_ok (flush_ok hf)]
    constructor
    · exact fun h => ⟨a, w, rfl, h⟩
    · rintro ⟨a', w', h, hm⟩
      cases h
      exact hm
  | error e =>
    rw [bind_error (flush_error hf)]
    simp

/-- a statement at the end of a program that returns -/
theorem flush_eq_ok {f : σ → Except ε (α × σ)} {s s' : Session σ} {a : α} :
    flush f s = (.ok a, s') ↔ ∃ w, f s.work = .ok (a, w) ∧ s' = { s with work := w } := by
  cases hf : f s.work with
  | ok p =>
    obtain ⟨b, w⟩ := p
    rw [flush_ok hf]
    constructor
    · intro h
      cases h
      exact ⟨w, rfl, rfl⟩
    · rintro ⟨w', h, rfl⟩
      cases h
      rfl
  | error e =>
    rw [flush_error hf]
    simp

/-- what a program answers may be changed at its end -/
theorem bind_pure_ok {m : Tx σ ε α} {f : α → β} {s : Session σ} :
    (∃ b s', (m >>= fun a => pure (f a)) s = (.ok b, s')) ↔ ∃ a s', m s = (.ok a, s') := by
  constructor
  · rintro ⟨b, s', h⟩
    rw [bind_apply] at h
    rcases hr : m s with ⟨_ | a, s₁⟩
    · rw [hr] at h
      cases h
    · exact ⟨a, s₁, rfl⟩
  · rintro ⟨a, s', h⟩
    exact ⟨f a, s', bind_ok h⟩

/-- a program that does not return raises -/
theorem raises_of_not_returns {m : Tx σ ε α} {s : Session σ} (h : ¬ Returns m s) :
    ∃ e, (m s).1 = .error e := by
  cases hr : (m s).1 with
  | ok a => exact absurd ⟨a, hr⟩ h
  | error e => exact ⟨e, rfl⟩

/-- what the caller of a program that raises is left with -/
theorem settle_error {r : Except ε α × Session σ} {e : ε} (h : r.1 = .error e) :
    settle r = r.2.durable := by
  rw [settle, h]

end Tx
