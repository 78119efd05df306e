/-
# `GridBuchi.Proofs.Outcomes` — what a command answers and what it leaves

A computation in a session has an `answer`, or a failure, and a session it
leaves behind, the same in either case.  Taken apart like this a sequence of
computations has one equation for each half, and every building block of the
commands one for each half as well.

Most computations only read: they value a literal, look a slot up or take over
a result.  `Reads` is how they are put together, and everything there is to
know about reading is proved along it, once: that it changes nothing, here,
and that it does not look at the log, in `GridBuchi.Proofs.Tracing`.

A command reads first and fills slots last, so a command that fails has not
changed anything yet; it is `Atomic`.
-/
import GridBuchi.Session.Run

namespace GridBuchi

namespace SessionM

variable {α β ε : Type}

/-- What a computation answers, or how it fails. -/
def answer (m : SessionM α) (σ : Session) : Except (Failure SessionError) α :=
  match m σ with
  | .ok a _ => .ok a
  | .error e _ => .error e

/-- The session a computation leaves behind, whether or not it fails. -/
def after (m : SessionM α) (σ : Session) : Session :=
  match m σ with
  | .ok _ σ' => σ'
  | .error _ σ' => σ'

/-! ## Sequences -/

theorem answer_bind (m : SessionM α) (f : α → SessionM β) (σ : Session) :
    answer (m >>= f) σ = answer m σ >>= fun a => answer (f a) (after m σ) := by
  show (match EStateM.bind m f σ with | .ok a _ => _ | .error e _ => _) = _
  rw [EStateM.bind, answer, after]
  cases m σ <;> rfl

theorem after_bind (m : SessionM α) (f : α → SessionM β) (σ : Session) :
    after (m >>= f) σ =
      match answer m σ with
      | .ok a => after (f a) (after m σ)
      | .error _ => after m σ := by
  show (match EStateM.bind m f σ with | .ok _ σ' => _ | .error _ σ' => _) = _
  rw [EStateM.bind, answer, after]
  cases m σ <;> rfl

/-- Answering leaves the session as it is. -/
theorem after_bind_pure (m : SessionM α) (g : α → β) (σ : Session) :
    after (m >>= fun a => pure (g a)) σ = after m σ := by
  rw [after_bind]
  cases answer m σ <;> rfl

/-- A sequence fails in its first part, or in the second from where the first
has left off. -/
theorem answer_bind_eq_error {m : SessionM α} {f : α → SessionM β} {σ : Session}
    {e : Failure SessionError} :
    answer (m >>= f) σ = .error e ↔
      answer m σ = .error e ∨ ∃ a, answer m σ = .ok a ∧ answer (f a) (after m σ) = .error e := by
  rw [answer_bind]
  cases answer m σ <;> simp [bind, Except.bind]

theorem answer_bind_eq_ok {m : SessionM α} {f : α → SessionM β} {σ : Session} {b : β} :
    answer (m >>= f) σ = .ok b ↔
      ∃ a, answer m σ = .ok a ∧ answer (f a) (after m σ) = .ok b := by
  rw [answer_bind]
  cases answer m σ <;> simp [bind, Except.bind]

@[simp] theorem answer_map_eq_error {m : SessionM α} {g : α → β} {σ : Session}
    {e : Failure SessionError} : answer (g <$> m) σ = .error e ↔ answer m σ = .error e := by
  rw [← bind_pure_comp, answer_bind]
  cases answer m σ <;> simp [bind, Except.bind, answer, pure, EStateM.pure]

/-! ## Building blocks -/

section Blocks

variable (σ : Session)

@[simp] theorem answer_pure (a : α) : answer (pure a : SessionM α) σ = .ok a := rfl

@[simp] theorem after_pure (a : α) : after (pure a : SessionM α) σ = σ := rfl

@[simp] theorem answer_attempt (f : ε → Failure SessionError) (x : Except ε α) :
    answer (attempt f x) σ = x.mapError f := by
  cases x <;> rfl

@[simp] theorem after_attempt (f : ε → Failure SessionError) (x : Except ε α) :
    after (attempt f x) σ = σ := by
  cases x <;> rfl

@[simp] theorem answer_modify (g : Session → Session) :
    answer (modify g : SessionM Unit) σ = .ok () := rfl

@[simp] theorem answer_record (f : ε → Failure SessionError) (x : Logged ε α) :
    answer (record f x) σ = x.result.mapError f := by
  rw [record, answer_bind, answer_modify]
  exact answer_attempt _ f x.result

@[simp] theorem after_record (f : ε → Failure SessionError) (x : Logged ε α) :
    after (record f x) σ = { σ with log := σ.log ++ x.events } := by
  rw [record, after_bind, answer_modify]
  exact after_attempt _ f x.result

/-- Looking a slot up takes over what the session has there. -/
theorem slot_apply (family : Session → Slots α) (name : String) :
    slot family name σ =
      match (family σ).get? name with
      | some a => .ok a σ
      | none => .error (.reported (.noSlot name)) σ := by
  show (match (family σ).get? name with
    | some a => (pure a : SessionM α)
    | none => throw (Failure.reported (SessionError.noSlot name))) σ = _
  cases (family σ).get? name <;> rfl

theorem answer_slot (family : Session → Slots α) (name : String) :
    answer (slot family name) σ =
      match (family σ).get? name with
      | some a => .ok a
      | none => .error (.reported (.noSlot name)) := by
  rw [answer, slot_apply]
  cases (family σ).get? name <;> rfl

@[simp] theorem answer_slot_eq_ok {family : Session → Slots α} {name : String} {a : α} :
    answer (slot family name) σ = .ok a ↔ (family σ).get? name = some a := by
  rw [answer_slot]
  cases (family σ).get? name <;> simp

@[simp] theorem answer_slot_ne_breach {family : Session → Slots α} {name : String} {b : Breach} :
    answer (slot family name) σ ≠ .error (.breach b) := by
  rw [answer_slot]
  cases (family σ).get? name <;> simp

@[simp] theorem after_slot (family : Session → Slots α) (name : String) :
    after (slot family name) σ = σ := by
  rw [after, slot_apply]
  cases (family σ).get? name <;> rfl

end Blocks

/-! ## Reading -/

/-- The computation is put together from lookups of slots, which are not part
of the log, and from results that are taken over. -/
inductive Reads : {α : Type} → SessionM α → Prop
  | pure {α : Type} (a : α) : Reads (pure a)
  | attempt {ε α : Type} (f : ε → Failure SessionError) (x : Except ε α) : Reads (attempt f x)
  | slot {α : Type} {family : Session → Slots α} :
      (∀ σ log, family { σ with log } = family σ) → ∀ name, Reads (slot family name)
  | bind {α β : Type} {m : SessionM α} {f : α → SessionM β} :
      Reads m → (∀ a, Reads (f a)) → Reads (m >>= f)

/-- The computation leaves every session as it is. -/
def ReadOnly (m : SessionM α) : Prop := ∀ σ, after m σ = σ

theorem readOnly_slot (family : Session → Slots α) (name : String) :
    ReadOnly (slot family name) := fun σ => after_slot σ family name

theorem ReadOnly.bind {m : SessionM α} {f : α → SessionM β} (hm : ReadOnly m)
    (hf : ∀ a, ReadOnly (f a)) : ReadOnly (m >>= f) := by
  intro σ
  rw [after_bind, hm σ]
  cases answer m σ with
  | ok a => exact hf a σ
  | error _ => rfl

theorem Reads.readOnly {m : SessionM α} (h : Reads m) : ReadOnly m := by
  induction h with
  | pure a => exact fun σ => after_pure σ a
  | attempt f x => exact fun σ => after_attempt σ f x
  | slot _ name => exact readOnly_slot _ name
  | bind _ _ ihm ihf => exact ihm.bind ihf

theorem ReadOnly.answer_bind_of_ok {m : SessionM α} (hm : ReadOnly m) {σ : Session} {a : α}
    (h : answer m σ = .ok a) (f : α → SessionM β) : answer (m >>= f) σ = answer (f a) σ := by
  rw [answer_bind, h, hm σ]
  rfl

theorem ReadOnly.after_bind_of_ok {m : SessionM α} (hm : ReadOnly m) {σ : Session} {a : α}
    (h : answer m σ = .ok a) (f : α → SessionM β) : after (m >>= f) σ = after (f a) σ := by
  rw [after_bind, h, hm σ]

/-! ## Failing before anything is changed -/

/-- The computation never fails. -/
def Total (m : SessionM α) : Prop := ∀ σ, ∃ a, answer m σ = .ok a

/-- If the computation fails, it leaves the session as it is. -/
def Atomic (m : SessionM α) : Prop := ∀ σ e, answer m σ = .error e → after m σ = σ

theorem total_pure (a : α) : Total (pure a) := fun _ => ⟨a, rfl⟩

theorem total_modify (g : Session → Session) : Total (modify g : SessionM Unit) := fun _ => ⟨(), rfl⟩

theorem Total.bind {m : SessionM α} {f : α → SessionM β} (hm : Total m) (hf : ∀ a, Total (f a)) :
    Total (m >>= f) := by
  intro σ
  obtain ⟨a, ha⟩ := hm σ
  obtain ⟨b, hb⟩ := hf a (after m σ)
  exact ⟨b, answer_bind_eq_ok.mpr ⟨a, ha, hb⟩⟩

theorem Total.atomic {m : SessionM α} (h : Total m) : Atomic m := by
  intro σ e he
  obtain ⟨a, ha⟩ := h σ
  rw [ha] at he
  cases he

/-- Reading first does no harm. -/
theorem ReadOnly.bind_atomic {m : SessionM α} {f : α → SessionM β} (hm : ReadOnly m)
    (hf : ∀ a, Atomic (f a)) : Atomic (m >>= f) := by
  intro σ e he
  rw [after_bind, hm σ]
  rcases answer_bind_eq_error.mp he with he | ⟨a, ha, he⟩
  · rw [he]
  · rw [ha]
    rw [hm σ] at he
    exact hf a σ e he

/-- What cannot fail may follow. -/
theorem Atomic.bind_total {m : SessionM α} {f : α → SessionM β} (hm : Atomic m)
    (hf : ∀ a, Total (f a)) : Atomic (m >>= f) := by
  intro σ e he
  rcases answer_bind_eq_error.mp he with he | ⟨a, -, he⟩
  · rw [after_bind, he]
    exact hm σ e he
  · obtain ⟨b, hb⟩ := hf a (after m σ)
    rw [hb] at he
    cases he

/-- Taking over a logged outcome is atomic if nothing is logged on failure. -/
theorem atomic_record {f : ε → Failure SessionError} {x : Logged ε α}
    (h : ∀ e, x.result = .error e → x.events = []) : Atomic (record f x) := by
  intro σ e he
  rw [answer_record] at he
  rw [after_record]
  cases hx : x.result with
  | ok a => rw [hx] at he; cases he
  | error d => rw [h d hx, List.append_nil]

end SessionM

theorem Session.step_eq (σ : Session) (c : Command) :
    σ.step c = (SessionM.answer c.run σ, SessionM.after c.run σ) := by
  rw [step, SessionM.answer, SessionM.after]
  cases c.run σ <;> rfl

end GridBuchi
