import Mathlib

/-!
This module contains methods that read and write the state of an object and may raise. In contrast
to `StateT σ (Except ε)` a raise does not roll the state back.
-/

inductive PyError where
  | valueError (message : String)
  | runtimeError (message : String)
  | keyError (message : String)
  | typeError (message : String)
  | indexError (message : String)
  | stopIteration
  deriving DecidableEq, Repr

def PyError.describe : PyError → String
  | valueError message => "ValueError: " ++ message
  | runtimeError message => "RuntimeError: " ++ message
  | keyError message => "KeyError: '" ++ message ++ "'"
  | typeError message => "TypeError: " ++ message
  | indexError message => "IndexError: " ++ message
  | stopIteration => "StopIteration: "

namespace Except

variable {ε : Type u} {α β : Type v} {f : α → Except ε β} {l : List α} {b : β}

theorem bind_eq_ok_iff {x : Except ε α} : (x >>= f) = .ok b ↔ ∃ a, x = .ok a ∧ f a = .ok b := by
  cases x with
  | error e => simp [bind, Except.bind]
  | ok a => simp [bind, Except.bind]

theorem ok_of_bind {x : Except ε α} (h : x >>= f = .ok b) : ∃ a, x = .ok a ∧ f a = .ok b :=
  bind_eq_ok_iff.mp h

theorem bind_eq_error_iff {x : Except ε α} {e : ε} :
    (x >>= f) = .error e ↔ x = .error e ∨ ∃ a, x = .ok a ∧ f a = .error e := by
  cases x with
  | error e => simp [bind, Except.bind]
  | ok a => simp [bind, Except.bind]

@[simp]
theorem bind_ok (a : α) (f : α → Except ε β) : (Except.ok a >>= f) = f a := rfl

@[simp]
theorem bind_error (e : ε) (f : α → Except ε β) : (Except.error e >>= f) = .error e := rfl

@[simp]
theorem pure_eq_ok (a : α) : (pure a : Except ε α) = .ok a := rfl

@[simp]
theorem throw_eq_error (e : ε) : (throw e : Except ε α) = .error e := rfl

def raiseIf (c : Prop) [Decidable c] (e : ε) : Except ε PUnit := if c then .error e else .ok ⟨⟩

@[simp]
theorem raiseIf_eq_ok_iff {c : Prop} [Decidable c] {e : ε} {u : PUnit} :
    raiseIf c e = .ok u ↔ ¬c := by
  unfold raiseIf
  split <;> simp [*]

theorem raiseIf_eq_error_iff {c : Prop} [Decidable c] {e e' : ε} :
    raiseIf c e = .error e' ↔ c ∧ e = e' := by
  unfold raiseIf
  split <;> simp [*]

theorem raiseIf_of_not {c : Prop} [Decidable c] {e : ε} (h : ¬c) : raiseIf c e = .ok ⟨⟩ := by
  rw [raiseIf_eq_ok_iff]
  exact h

theorem mapM_eq_ok {g : α → β} (h : ∀ a ∈ l, f a = .ok (g a)) : l.mapM f = .ok (l.map g) := by
  induction l with
  | nil => rfl
  | cons a l ih =>
    rw [List.mapM_cons, h a (by simp), bind_ok, ih (fun b hb => h b (by simp [hb]))]
    rfl

theorem mem_of_mapM_eq_ok {l' : List β} (h : l.mapM f = .ok l')
    (hb : b ∈ l') : ∃ a ∈ l, f a = .ok b := by
  induction l generalizing l' with
  | nil =>
    cases h
    cases hb
  | cons a l ih =>
    rw [List.mapM_cons] at h
    obtain ⟨c, hc, h⟩ := ok_of_bind h
    obtain ⟨cs, hcs, h⟩ := ok_of_bind h
    cases h
    rcases List.mem_cons.mp hb with rfl | hb
    . exact ⟨a, by simp, hc⟩
    . obtain ⟨a', ha', hfa'⟩ := ih hcs hb
      exact ⟨a', by simp [ha'], hfa'⟩

theorem exists_mem_of_mapM_eq_ok {l' : List β}
    (h : l.mapM f = .ok l') {a : α} (ha : a ∈ l) : ∃ b ∈ l', f a = .ok b := by
  induction l generalizing l' with
  | nil => cases ha
  | cons a' l ih =>
    rw [List.mapM_cons] at h
    obtain ⟨c, hc, h⟩ := ok_of_bind h
    obtain ⟨cs, hcs, h⟩ := ok_of_bind h
    cases h
    rcases List.mem_cons.mp ha with rfl | ha
    . exact ⟨c, by simp, hc⟩
    . obtain ⟨b, hb, hfb⟩ := ih hcs ha
      exact ⟨b, by simp [hb], hfb⟩

theorem mapM_exists {g : β → α}
    (h : ∀ a ∈ l, ∃ b, f a = .ok b ∧ g b = a) : ∃ l', l.mapM f = .ok l' ∧ l'.map g = l := by
  induction l with
  | nil => exact ⟨[], rfl, rfl⟩
  | cons a l ih =>
    obtain ⟨b, hb, hgb⟩ := h a (by simp)
    obtain ⟨l', hl', hgl⟩ := ih fun a ha => h a (by simp [ha])
    refine ⟨b :: l', ?_, by rw [List.map_cons, hgb, hgl]⟩
    rw [List.mapM_cons, hb, bind_ok, hl']
    rfl

theorem forM_eq_ok_iff {γ : Type w} {f : γ → Except ε PUnit} {l : List γ} {u : PUnit} :
    l.forM f = .ok u ↔ ∀ x ∈ l, f x = .ok ⟨⟩ := by
  induction l with
  | nil => simp [pure_eq_ok]
  | cons x l ih =>
    show (f x >>= fun _ => l.forM f) = .ok ⟨⟩ ↔ _
    rw [bind_eq_ok_iff, List.forall_mem_cons, ← ih]
    constructor
    . rintro ⟨_, hx, hl⟩
      exact ⟨hx, hl⟩
    . rintro ⟨hx, hl⟩
      exact ⟨_, hx, hl⟩

theorem foldlM_eq_ok {f : β → α → Except ε β} {g : β → α → β} (I : β → Prop)
    (hok : ∀ b a, a ∈ l → I b → f b a = .ok (g b a)) (hI : ∀ b a, a ∈ l → I b → I (g b a))
    (hb : I b) : l.foldlM f b = .ok (l.foldl g b) := by
  induction l generalizing b with
  | nil => rfl
  | cons a l ih =>
    rw [List.foldlM_cons, hok b a (by simp) hb, bind_ok, List.foldl_cons]
    apply ih
    . intro b a ha
      exact hok b a (by simp [ha])
    . intro b a ha
      exact hI b a (by simp [ha])
    . exact hI b a (by simp) hb

theorem foldlM_invariant {f : β → α → Except ε β} (I : β → Prop)
    (hI : ∀ b a b', a ∈ l → I b → f b a = .ok b' → I b') {b' : β} (hb : I b)
    (h : l.foldlM f b = .ok b') : I b' := by
  induction l generalizing b with
  | nil =>
    cases h
    exact hb
  | cons a l ih =>
    rw [List.foldlM_cons] at h
    obtain ⟨c, hc, h⟩ := ok_of_bind h
    apply ih _ _ h
    . intro b a b' ha
      exact hI b a b' (by simp [ha])
    . exact hI b a c (by simp) hb hc

theorem foldlM_isOk_iff {f : β → α → Except ε β} :
    (∃ b', l.foldlM f b = .ok b') ↔
      ∀ before a after b', l = before ++ a :: after → before.foldlM f b = .ok b' →
        ∃ b'', f b' a = .ok b'' := by
  induction l generalizing b with
  | nil => simp
  | cons a l ih =>
    simp only [List.foldlM_cons, bind_eq_ok_iff]
    constructor
    . rintro ⟨b', c, hc, hb'⟩ before a' after d hsplit hd
      cases before with
      | nil =>
        cases hsplit
        cases hd
        exact ⟨c, hc⟩
      | cons a'' before =>
        cases hsplit
        obtain ⟨c', hc', hd⟩ := ok_of_bind hd
        rw [hc] at hc'
        cases hc'
        exact ih.mp ⟨b', hb'⟩ before a' after d rfl hd
    . intro h
      obtain ⟨c, hc⟩ := h [] a l b rfl rfl
      obtain ⟨b', hb'⟩ := ih.mpr fun before a' after d hsplit hd =>
        h (a :: before) a' after d (by rw [hsplit]; rfl)
          (by rw [List.foldlM_cons, hc, bind_ok]; exact hd)
      exact ⟨b', c, hc, hb'⟩

section Raises

variable {P : ε → Prop}

def Raises (P : ε → Prop) (x : Except ε α) : Prop := ∀ e, x = .error e → P e

theorem raises_ok (a : α) : (Except.ok a : Except ε α).Raises P := fun _ h => by cases h

theorem raises_error {e : ε} (h : P e) : (Except.error e : Except ε α).Raises P :=
  fun _ he => by cases he; exact h

theorem raises_bind {x : Except ε α} {f : α → Except ε β} (hx : x.Raises P)
    (hf : ∀ a, x = .ok a → (f a).Raises P) : (x >>= f).Raises P := by
  intro e he
  rcases bind_eq_error_iff.mp he with h | ⟨a, ha, h⟩
  . exact hx e h
  . exact hf a ha e h

theorem raises_raiseIf {c : Prop} [Decidable c] {e : ε} (h : P e) : (raiseIf c e).Raises P := by
  unfold raiseIf
  split
  . exact raises_error h
  . exact raises_ok _

theorem raises_mapM {f : α → Except ε β} {l : List α} (h : ∀ a ∈ l, (f a).Raises P) :
    (l.mapM f).Raises P := by
  induction l with
  | nil => exact raises_ok _
  | cons a l ih =>
    rw [List.mapM_cons]
    apply raises_bind (h a (by simp))
    intro b _
    apply raises_bind (ih fun a ha => h a (by simp [ha]))
    intro bs _
    exact raises_ok _

theorem raises_forM {γ : Type w} {f : γ → Except ε PUnit} {l : List γ}
    (h : ∀ a ∈ l, (f a).Raises P) : (l.forM f).Raises P := by
  induction l with
  | nil => exact raises_ok _
  | cons a l ih =>
    exact raises_bind (h a (by simp)) fun _ _ => ih fun a ha => h a (by simp [ha])

theorem raises_foldlM {γ : Type w} {f : β → γ → Except ε β} {l : List γ}
    (h : ∀ b, ∀ a ∈ l, (f b a).Raises P) (b : β) : (l.foldlM f b).Raises P := by
  induction l generalizing b with
  | nil => exact raises_ok _
  | cons a l ih =>
    rw [List.foldlM_cons]
    exact raises_bind (h b a (by simp)) fun _ _ => ih (fun b a ha => h b a (by simp [ha])) _

theorem raises_findSomeM? {γ : Type w} {f : γ → Except ε (Option β)} {l : List γ}
    (h : ∀ a ∈ l, (f a).Raises P) : (l.findSomeM? f).Raises P := by
  induction l with
  | nil => exact raises_ok _
  | cons a l ih =>
    rw [List.findSomeM?]
    apply raises_bind (h a (by simp))
    intro b _
    cases b with
    | some b => exact raises_ok _
    | none => exact ih fun a ha => h a (by simp [ha])

end Raises

end Except

def Py (σ : Type u) (α : Type u) : Type u := σ → Except PyError α × σ

namespace Py

variable {σ α β : Type u} (m : Py σ α)

protected def pure (a : α) : Py σ α := fun s => (.ok a, s)

protected def bind (f : α → Py σ β) : Py σ β := fun s =>
  match m s with
  | (.ok a, s) => f a s
  | (.error e, s) => (.error e, s)

instance : Monad (Py σ) where
  pure := Py.pure
  bind := Py.bind

def get : Py σ σ := fun s => (.ok s, s)

def set (s : σ) : Py σ PUnit := fun _ => (.ok ⟨⟩, s)

def modify (f : σ → σ) : Py σ PUnit := fun s => (.ok ⟨⟩, f s)

def raise (e : PyError) : Py σ α := fun s => (.error e, s)

def lift (x : Except PyError α) : Py σ α := fun s => (x, s)

def read (f : σ → Except PyError α) : Py σ α := fun s => (f s, s)

def zoom {τ : Type u} (proj : σ → τ) (put : τ → σ → σ) (m : Py τ α) : Py σ α := fun s =>
  match m (proj s) with
  | (r, t) => (r, put t s)

def onError (handler : Py σ PUnit) : Py σ α := fun s =>
  match m s with
  | (.ok a, s) => (.ok a, s)
  | (.error e, s) => Py.bind handler (fun _ s => (.error e, s)) s

def exceptKeyError (fallback : Py σ α) : Py σ α := fun s =>
  match m s with
  | (.error (.keyError _), s) => fallback s
  | r => r

def forEach {γ : Type w} (l : List γ) (body : γ → Py σ PUnit) : Py σ PUnit :=
  match l with
  | [] => Py.pure ⟨⟩
  | x :: l => Py.bind (body x) fun _ => forEach l body

@[simp]
theorem pure_apply (a : α) (s : σ) : (pure a : Py σ α) s = (.ok a, s) := rfl

theorem bind_apply (f : α → Py σ β) (s : σ) : (m >>= f) s =
      match m s with
      | (.ok a, s) => f a s
      | (.error e, s) => (.error e, s) := rfl

theorem bind_pure_apply (f : α → β) (s : σ) :
    (m >>= fun a => pure (f a)) s = Prod.map (Except.map f) id (m s) := by
  rw [bind_apply]
  rcases m s with ⟨_ | a, s'⟩ <;> rfl

@[simp]
theorem get_apply (s : σ) : (get : Py σ σ) s = (.ok s, s) := rfl

@[simp]
theorem set_apply (s t : σ) : set t s = (.ok ⟨⟩, t) := rfl

@[simp]
theorem modify_apply (f : σ → σ) (s : σ) : modify f s = (.ok ⟨⟩, f s) := rfl

@[simp]
theorem raise_apply (e : PyError) (s : σ) : (raise e : Py σ α) s = (.error e, s) := rfl

@[simp]
theorem lift_apply (x : Except PyError α) (s : σ) : (lift x : Py σ α) s = (x, s) := rfl

@[simp]
theorem read_apply (f : σ → Except PyError α) (s : σ) : (read f : Py σ α) s = (f s, s) := rfl

theorem forEach_lift {γ : Type w} {l : List γ} {f : γ → Except PyError PUnit}
    (h : ∀ x ∈ l, f x = .ok ⟨⟩) (s : σ) : forEach l (fun x => lift (f x)) s = (.ok ⟨⟩, s) := by
  induction l with
  | nil => rfl
  | cons x l ih =>
    show (lift (f x) >>= fun _ => forEach l fun x => lift (f x)) s = _
    rw [bind_apply, lift_apply, h x (by simp)]
    exact ih fun y hy => h y (by simp [hy])

/--
`m.Ensures s Q E`: run from `s`, `m` either returns a value that satisfies `Q` with the state it
leaves behind, or raises and leaves a state that satisfies `E`.
-/
def Ensures (s : σ) (Q : α → σ → Prop) (E : PyError → σ → Prop) : Prop :=
  match m s with
  | (.ok a, s') => Q a s'
  | (.error e, s') => E e s'

section Ensures

variable {Q : α → σ → Prop} {E : PyError → σ → Prop} {s : σ} {a : α} {e : PyError}

@[simp]
theorem ensures_pure : (pure a : Py σ α).Ensures s Q E ↔ Q a s := Iff.rfl

@[simp]
theorem ensures_bind {m : Py σ β} {f : β → Py σ α} :
    (m >>= f).Ensures s Q E ↔ m.Ensures s (fun b s' => (f b).Ensures s' Q E) E := by
  unfold Ensures
  rw [bind_apply]
  cases hm : m s with
  | mk r s' =>
    cases r with
    | error e => rfl
    | ok b => rfl

@[simp]
theorem ensures_get {Q : σ → σ → Prop} : (get : Py σ σ).Ensures s Q E ↔ Q s s := Iff.rfl

@[simp]
theorem ensures_set {Q : PUnit → σ → Prop} {t : σ} : (set t).Ensures s Q E ↔ Q ⟨⟩ t := Iff.rfl

@[simp]
theorem ensures_modify {Q : PUnit → σ → Prop} {f : σ → σ} :
    (modify f).Ensures s Q E ↔ Q ⟨⟩ (f s) := Iff.rfl

@[simp]
theorem ensures_raise : (raise e : Py σ α).Ensures s Q E ↔ E e s := Iff.rfl

@[simp]
theorem ensures_lift_ok : (lift (.ok a) : Py σ α).Ensures s Q E ↔ Q a s := Iff.rfl

@[simp]
theorem ensures_lift_error :
    (lift (.error e) : Py σ α).Ensures s Q E ↔ E e s := Iff.rfl

theorem ensures_lift {x : Except PyError α} :
    (lift x : Py σ α).Ensures s Q E ↔ (∀ a, x = .ok a → Q a s) ∧ ∀ e, x = .error e → E e s := by
  cases x <;> simp

theorem ensures_read {f : σ → Except PyError α} :
    (read f : Py σ α).Ensures s Q E ↔ (∀ a, f s = .ok a → Q a s) ∧ ∀ e, f s = .error e → E e s := by
  unfold Ensures
  rw [read_apply]
  cases f s <;> simp

theorem ensures_raiseIf {Q : PUnit → σ → Prop} {c : Prop} [Decidable c] :
    (lift (Except.raiseIf c e) : Py σ PUnit).Ensures s Q E ↔ (c → E e s) ∧ (¬c → Q ⟨⟩ s) := by
  unfold Except.raiseIf
  split <;> simp [*]

@[simp]
theorem ensures_forEach_nil {γ : Type w} {body : γ → Py σ PUnit} {Q : PUnit → σ → Prop} :
    (forEach [] body).Ensures s Q E ↔ Q ⟨⟩ s := Iff.rfl

theorem ensures_ite {c : Prop} [Decidable c] {m n : Py σ α} :
    (if c then m else n).Ensures s Q E ↔ (c → m.Ensures s Q E) ∧ (¬c → n.Ensures s Q E) := by
  split <;> simp [*]

theorem ensures_get_bind {f : σ → Py σ α} : (get >>= f).Ensures s Q E ↔ (f s).Ensures s Q E :=
  ensures_bind

theorem ensures_modify_bind {g : σ → σ} {f : PUnit → Py σ α} :
    (modify g >>= f).Ensures s Q E ↔ (f ⟨⟩).Ensures (g s) Q E := ensures_bind

theorem ensures_lift_bind {x : Except PyError β} {f : β → Py σ α} :
    (lift x >>= f).Ensures s Q E ↔
      (∀ b, x = .ok b → (f b).Ensures s Q E) ∧ ∀ e, x = .error e → E e s :=
  ensures_bind.trans ensures_lift

theorem ensures_raiseIf_bind {c : Prop} [Decidable c] {f : PUnit → Py σ α} :
    (lift (Except.raiseIf c e) >>= f).Ensures s Q E ↔ (c → E e s) ∧ (¬c → (f ⟨⟩).Ensures s Q E) :=
  ensures_bind.trans ensures_raiseIf

theorem Ensures.mono {m : Py σ α} {Q' : α → σ → Prop} {E' : PyError → σ → Prop}
    (h : m.Ensures s Q E) (hQ : ∀ a s', Q a s' → Q' a s') (hE : ∀ e s', E e s' → E' e s') :
    m.Ensures s Q' E' := by
  unfold Ensures at *
  cases hm : m s with
  | mk r s' =>
    rw [hm] at h
    cases r with
    | error e => exact hE _ _ h
    | ok a => exact hQ _ _ h

theorem Ensures.bind {m : Py σ β} {f : β → Py σ α} {R : β → σ → Prop} {E' : PyError → σ → Prop}
    (h : m.Ensures s R E') (hf : ∀ b s', R b s' → (f b).Ensures s' Q E)
    (hE : ∀ e s', E' e s' → E e s') : (m >>= f).Ensures s Q E := by
  rw [ensures_bind]
  exact h.mono hf hE

theorem ensures_forEach_lift {γ : Type w} {l : List γ} {f : γ → Except PyError PUnit} :
    (forEach l fun x => lift (f x)).Ensures s
      (fun _ s' => s' = s ∧ ∀ x ∈ l, f x = .ok ⟨⟩) (fun _ s' => s' = s) := by
  induction l with
  | nil => exact ⟨rfl, by simp⟩
  | cons x l ih =>
    show (lift (f x) >>= fun _ => forEach l fun x => lift (f x)).Ensures s _ _
    rw [ensures_bind, ensures_lift]
    refine ⟨fun _ hx => ih.mono ?_ fun _ _ h => h, fun _ _ => rfl⟩
    rintro _ s' ⟨hs', hl⟩
    exact ⟨hs', List.forall_mem_cons.mpr ⟨hx, hl⟩⟩

theorem ensures_iff_of_ok {m : Py σ α} {s' : σ} (h : m s = (.ok a, s')) :
    m.Ensures s Q E ↔ Q a s' := by
  unfold Ensures
  rw [h]

theorem Ensures.of_ok {m : Py σ α} (h : m.Ensures s Q E) {s' : σ}
    (hm : m s = (.ok a, s')) : Q a s' := by
  unfold Ensures at h
  rw [hm] at h
  exact h

theorem Ensures.of_isOk {m : Py σ α} (h : m.Ensures s Q E) (hok : (m s).1.isOk) :
    ∃ a, Q a (m s).2 := by
  unfold Ensures at h
  cases hm : m s with
  | mk result s' =>
    rw [hm] at h hok
    cases result with
    | error e => cases hok
    | ok a => exact ⟨a, h⟩

theorem Ensures.state {m : Py σ α} {P : σ → Prop}
    (h : m.Ensures s (fun _ s' => P s') (fun _ s' => P s')) : P (m s).2 := by
  unfold Ensures at h
  cases hm : m s with
  | mk r s' =>
    rw [hm] at h
    cases r with
    | error e => exact h
    | ok a => exact h

theorem ensures_of_state {m : Py σ α} {P : σ → Prop} (h : P (m s).2)
    (hQ : ∀ a s', P s' → Q a s') (hE : ∀ e s', P s' → E e s') : m.Ensures s Q E := by
  unfold Ensures
  cases hm : m s with
  | mk r s' =>
    rw [hm] at h
    cases r with
    | error e => exact hE e s' h
    | ok a => exact hQ a s' h

def Returns (P : α → Prop) (m : Py σ α) : Prop := ∀ s, m.Ensures s (fun a _ => P a) fun _ _ => True

theorem returns_pure {P : α → Prop} (h : P a) : (pure a : Py σ α).Returns P := fun _ => h

theorem returns_bind {P : α → Prop} {m : Py σ β} {f : β → Py σ α} (h : ∀ b, (f b).Returns P) :
    (m >>= f).Returns P := by
  intro s
  rw [ensures_bind]
  unfold Ensures
  split
  . next b s' _ => exact h b s'
  . trivial

theorem ensures_onError {m : Py σ α} {handler : Py σ PUnit} :
    (m.onError handler).Ensures s Q E ↔
      m.Ensures s Q fun e s' => handler.Ensures s' (fun _ t => E e t) E := by
  unfold Ensures onError
  cases hm : m s with
  | mk r s' =>
    cases r with
    | ok a => rfl
    | error e =>
      unfold Py.bind
      cases hh : handler s' with
      | mk r' t => cases r' <;> simp [hh]

theorem ensures_exceptKeyError {m fallback : Py σ α} (h : m.Ensures s Q fun e s' =>
      match e with
      | .keyError _ => fallback.Ensures s' Q E
      | _ => E e s') :
    (m.exceptKeyError fallback).Ensures s Q E := by
  unfold Ensures exceptKeyError
  unfold Ensures at h
  cases hm : m s with
  | mk r s' =>
    rw [hm] at h
    cases r with
    | ok a => exact h
    | error e => cases e <;> exact h

theorem ensures_zoom {τ : Type u} {proj : σ → τ} {put : τ → σ → σ} {m : Py τ α} :
    (zoom proj put m).Ensures s Q E ↔
      m.Ensures (proj s) (fun a t => Q a (put t s)) (fun e t => E e (put t s)) := by
  unfold Ensures zoom
  cases hm : m (proj s) with
  | mk r t =>
    cases r with
    | error e => rfl
    | ok a => rfl

end Ensures

/-- Whether `m` returns or raises, it leaves a state that satisfies `I` when it starts in one. -/
def Keeps (I : σ → Prop) (m : Py σ α) : Prop :=
  ∀ s, I s → m.Ensures s (fun _ s' => I s') (fun _ s' => I s')

section Keeps

variable {I : σ → Prop}

theorem Keeps.state {m : Py σ α} (h : m.Keeps I) {s : σ} (hs : I s) : I (m s).2 := (h s hs).state

theorem keeps_pure (a : α) : (pure a : Py σ α).Keeps I := fun _ hs => hs

theorem keeps_get : (get : Py σ σ).Keeps I := fun _ hs => hs

theorem keeps_raise (e : PyError) : (raise e : Py σ α).Keeps I := fun _ hs => hs

theorem keeps_lift (x : Except PyError α) : (lift x : Py σ α).Keeps I := by
  intro s hs
  rw [ensures_lift]
  exact ⟨fun _ _ => hs, fun _ _ => hs⟩

theorem keeps_read (f : σ → Except PyError α) : (read f : Py σ α).Keeps I := by
  intro s hs
  rw [ensures_read]
  exact ⟨fun _ _ => hs, fun _ _ => hs⟩

theorem keeps_modify {f : σ → σ} (h : ∀ s, I s → I (f s)) : (modify f).Keeps I := fun s hs => h s hs

theorem keeps_bind {m : Py σ α} {f : α → Py σ β} (hm : m.Keeps I) (hf : ∀ a, (f a).Keeps I) :
    (m >>= f).Keeps I := by
  intro s hs
  rw [ensures_bind]
  apply (hm s hs).mono
  . intro a s' hs'
    exact hf a s' hs'
  . intro e s' hs'
    exact hs'

theorem keeps_ite {c : Prop} [Decidable c] {m n : Py σ α} (hm : c → m.Keeps I)
    (hn : ¬c → n.Keeps I) : (if c then m else n).Keeps I := by
  split
  . next h => exact hm h
  . next h => exact hn h

theorem Keeps.of_state {m : Py σ α} (h : ∀ s, I s → I (m s).2) : m.Keeps I := fun s hs =>
  ensures_of_state (h s hs) (fun _ _ h => h) fun _ _ h => h

theorem keeps_exceptKeyError {m fallback : Py σ α} (hm : m.Keeps I) (hfallback : fallback.Keeps I) :
    (m.exceptKeyError fallback).Keeps I := by
  intro s hs
  apply ensures_exceptKeyError
  apply (hm s hs).mono
  . exact fun _ _ hs' => hs'
  . intro e s' hs'
    cases e <;> first | exact hfallback s' hs' | exact hs'

theorem keeps_zoom {τ : Type u} {proj : σ → τ} {put : τ → σ → σ} {m : Py τ α} {J : τ → Prop}
    (hm : m.Keeps J) (hJ : ∀ s, I s → J (proj s)) (hI : ∀ s t, I s → J t → I (put t s)) :
    (zoom proj put m).Keeps I := by
  intro s hs
  rw [ensures_zoom]
  exact (hm (proj s) (hJ s hs)).mono (fun _ t ht => hI s t hs ht) fun _ t ht => hI s t hs ht

theorem keeps_forEach {γ : Type w} {l : List γ} {body : γ → Py σ PUnit}
    (h : ∀ x ∈ l, (body x).Keeps I) : (forEach l body).Keeps I := by
  induction l with
  | nil => exact keeps_pure _
  | cons x l ih =>
    apply keeps_bind
    . exact h x (by simp)
    . intro _
      apply ih
      intro y hy
      exact h y (by simp [hy])

end Keeps

end Py

/-! A run feeds a list of calls to the step function of an object. -/

namespace Run

variable {σ : Type u} {ι : Type v} {P : ι → σ → Prop} {calls : List ι} {s : σ}

def run (step : ι → σ → σ) (calls : List ι) (s : σ) : σ := calls.foldl (fun s call => step call s) s

variable {step : ι → σ → σ}

@[simp]
theorem run_nil (s : σ) : run step [] s = s := rfl

@[simp]
theorem run_cons (call : ι) (calls : List ι) (s : σ) :
    run step (call :: calls) s = run step calls (step call s) := rfl

theorem run_append (calls calls' : List ι) (s : σ) :
    run step (calls ++ calls') s = run step calls' (run step calls s) := by
  unfold run
  rw [List.foldl_append]

theorem run_invariant (I : σ → Prop)
    (hstep : ∀ call ∈ calls, ∀ s, I s → I (step call s)) (hs : I s) : I (run step calls s) := by
  induction calls generalizing s with
  | nil => exact hs
  | cons call calls ih =>
    apply ih
    . intro call' hcall'
      exact hstep call' (by simp [hcall'])
    . exact hstep call (by simp) s hs

def Always (step : ι → σ → σ) (P : ι → σ → Prop) : List ι → σ → Prop
  | [], _ => True
  | call :: calls, s => P call s ∧ Always step P calls (step call s)

instance {step : ι → σ → σ} {P : ι → σ → Prop} [∀ call s, Decidable (P call s)] :
    (calls : List ι) → (s : σ) → Decidable (Always step P calls s)
  | [], _ => inferInstanceAs (Decidable True)
  | call :: calls, s =>
    have : Decidable (Always step P calls (step call s)) := instDecidableAlways calls (step call s)
    inferInstanceAs (Decidable (_ ∧ _))

theorem always_of_forall (h : ∀ call ∈ calls, ∀ s, P call s) (s : σ) : Always step P calls s := by
  induction calls generalizing s with
  | nil => exact trivial
  | cons call calls ih =>
    rw [List.forall_mem_cons] at h
    exact ⟨h.1 s, ih h.2 (step call s)⟩

theorem always_append {calls' : List ι} :
    Always step P (calls ++ calls') s ↔
      Always step P calls s ∧ Always step P calls' (run step calls s) := by
  induction calls generalizing s with
  | nil => simp [Always]
  | cons call calls ih =>
    rw [List.cons_append, Always, Always, ih, run_cons, and_assoc]

theorem run_invariant_of_always (I : σ → Prop) (hstep : ∀ call s, P call s → I s → I (step call s))
    (h : Always step P calls s) (hs : I s) : I (run step calls s) := by
  induction calls generalizing s with
  | nil => exact hs
  | cons call calls ih => exact ih h.2 (hstep call s h.1 hs)

def log {β : Type w} (step : ι → σ → σ) (emit : ι → σ → List β) : List ι → σ → List β
  | [], _ => []
  | call :: calls, s => emit call s ++ log step emit calls (step call s)

theorem run_log_invariant {β : Type w} {emit : ι → σ → List β} (I : List β → σ → Prop)
    (hstep : ∀ call s entries, P call s → I entries s →
      I (entries ++ emit call s) (step call s)) {entries : List β}
    (h : Always step P calls s) (hs : I entries s) :
    I (entries ++ log step emit calls s) (run step calls s) := by
  induction calls generalizing s entries with
  | nil =>
    unfold log
    rwa [List.append_nil]
  | cons call calls ih =>
    unfold log
    rw [← List.append_assoc]
    exact ih h.2 (hstep call s entries h.1 hs)

end Run
