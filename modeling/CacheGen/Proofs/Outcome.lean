import CacheGen.Error
import Mathlib.Data.List.Forall2

/-!
# Outcomes

What a computation went through that ended well. A sequence of steps ends well exactly when each of
them does, on the result of the one before; a pass over a list, when its step does on each element.

A computation that does not end well ends with the error of the first step that fails
(`error?_mapM`, `error?_foldlM`). So where the errors of every step are of a kind, those of the
whole are (`ErrorsIn`).
-/

namespace CacheGen.Outcome

variable {ε α β : Type}

theorem bind_eq_ok {x : Except ε α} {f : α → Except ε β} {b : β} :
    x >>= f = .ok b ↔ ∃ a, x = .ok a ∧ f a = .ok b := by
  cases x with
  | error e => exact ⟨fun h => (nomatch h), fun ⟨_, h, _⟩ => (nomatch h)⟩
  | ok a => exact ⟨fun h => ⟨a, rfl, h⟩, fun ⟨_, h, h'⟩ => by cases h; exact h'⟩

theorem pure_eq_ok {a b : α} : (pure a : Except ε α) = .ok b ↔ a = b :=
  Except.ok.injEq a b ▸ Iff.rfl

theorem bind_eq_error {x : Except ε α} {f : α → Except ε β} {e : ε} :
    x >>= f = .error e ↔ x = .error e ∨ ∃ a, x = .ok a ∧ f a = .error e := by
  cases x with
  | error e' => simp [bind, Except.bind]
  | ok a => simp [bind, Except.bind]

theorem mapM_eq_ok {f : α → Except ε β} {as : List α} {bs : List β} :
    as.mapM f = .ok bs ↔ List.Forall₂ (fun a b => f a = .ok b) as bs := by
  induction as generalizing bs with
  | nil =>
    rw [List.mapM_nil, pure_eq_ok, List.forall₂_nil_left_iff, eq_comm]
  | cons a as ih =>
    rw [List.mapM_cons, bind_eq_ok, List.forall₂_cons_left_iff]
    constructor
    · rintro ⟨b, hb, hrest⟩
      obtain ⟨bs', hbs, hout⟩ := bind_eq_ok.1 hrest
      exact ⟨b, bs', hb, ih.1 hbs, (pure_eq_ok.1 hout).symm⟩
    · rintro ⟨b, bs', hb, hbs, rfl⟩
      exact ⟨b, hb, bind_eq_ok.2 ⟨bs', ih.2 hbs, rfl⟩⟩

/-- What a pass gives, its step gives on some element. -/
theorem exists_of_mem_mapM {f : α → Except ε β} {as : List α} {bs : List β}
    (h : as.mapM f = .ok bs) {b : β} (hb : b ∈ bs) : ∃ a ∈ as, f a = .ok b := by
  induction mapM_eq_ok.1 h with
  | nil => cases hb
  | cons hhead htail ih =>
    rcases List.mem_cons.1 hb with rfl | hb
    · exact ⟨_, List.mem_cons_self, hhead⟩
    · obtain ⟨a, ha, hab⟩ := ih (mapM_eq_ok.2 htail) hb
      exact ⟨a, List.mem_cons_of_mem _ ha, hab⟩

/-- Two passes, the second over what the first gave, are one. -/
theorem mapM_bind {γ : Type} {f : α → Except ε β} {g : β → Except ε γ} {as : List α} {bs : List β}
    {cs : List γ} (hf : as.mapM f = .ok bs) (hg : bs.mapM g = .ok cs) :
    as.mapM (fun a => f a >>= g) = .ok cs := by
  rw [mapM_eq_ok] at hf hg ⊢
  induction hf generalizing cs with
  | nil =>
    cases hg
    exact .nil
  | cons hb _ ih =>
    cases hg with
    | cons hc hrest => exact .cons (bind_eq_ok.2 ⟨_, hb, hc⟩) (ih hrest)

/-- What a step gives may be changed at once or at the end. -/
theorem map_mapM {γ : Type} (g : β → γ) (f : α → Except ε β) (as : List α) :
    List.map g <$> as.mapM f = as.mapM fun a => g <$> f a := by
  induction as with
  | nil => rfl
  | cons a as ih =>
    rw [List.mapM_cons, List.mapM_cons, ← ih]
    cases f a with
    | error e => rfl
    | ok b => cases as.mapM f <;> rfl

/-! ## Errors -/

/-- The error that a computation ends with. -/
def error? : Except ε α → Option ε
  | .error e => some e
  | .ok _ => none

theorem error?_eq_some {x : Except ε α} {e : ε} : error? x = some e ↔ x = .error e := by
  cases x with
  | error e' => simp [error?]
  | ok a => simp [error?]

theorem error?_eq_none {x : Except ε α} : error? x = none ↔ ∃ a, x = .ok a := by
  cases x with
  | error e => simp [error?]
  | ok a => simp [error?]

theorem error?_map (f : α → β) (x : Except ε α) : error? (x.map f) = error? x := by
  cases x <;> rfl

/-- A step behind `x` whose error does not depend on what `x` gives. -/
theorem error?_bind {x : Except ε α} {f : α → Except ε β} {o : Option ε}
    (hf : ∀ a, error? (f a) = o) : error? (x >>= f) = (error? x).or o := by
  cases x with
  | error e => rfl
  | ok a => exact hf a

theorem error?_bind_pure (x : Except ε α) (f : α → β) :
    error? (x >>= fun a => pure (f a)) = error? x := by
  cases x <;> rfl

theorem error?_mapM (f : α → Except ε β) (as : List α) :
    error? (as.mapM f) = as.findSome? fun a => error? (f a) := by
  induction as with
  | nil => rfl
  | cons a as ih =>
    rw [List.mapM_cons, List.findSome?_cons]
    cases ha : f a with
    | error e => rfl
    | ok b =>
      show error? (as.mapM f >>= fun bs => pure (b :: bs)) = _
      rw [error?_bind_pure, ih]
      rfl

theorem exists_mapM {f : α → Except ε β} {as : List α} (h : ∀ a ∈ as, ∃ b, f a = .ok b) :
    ∃ bs, as.mapM f = .ok bs := by
  rw [← error?_eq_none, error?_mapM, List.findSome?_eq_none_iff]
  exact fun a ha => error?_eq_none.2 (h a ha)

/-- A run of steps, each with an error that does not depend on the state. -/
theorem error?_foldlM {f : β → α → Except ε β} {g : α → Option ε}
    (hf : ∀ b a, error? (f b a) = g a) (as : List α) (b : β) :
    error? (as.foldlM f b) = as.findSome? g := by
  induction as generalizing b with
  | nil => rfl
  | cons a as ih =>
    rw [List.foldlM_cons, List.findSome?_cons, error?_bind fun b' => ih b', hf]
    cases g a <;> rfl

/-- What every step keeps, the run keeps. -/
theorem foldlM_keeps {f : β → α → Except ε β} {p : β → Prop}
    (hf : ∀ {b a b'}, p b → f b a = .ok b' → p b') {as : List α} {b b' : β} (hb : p b)
    (h : as.foldlM f b = .ok b') : p b' := by
  induction as generalizing b with
  | nil =>
    rw [List.foldlM_nil, pure_eq_ok] at h
    exact h ▸ hb
  | cons a as ih =>
    rw [List.foldlM_cons] at h
    obtain ⟨b₁, hstep, hrest⟩ := bind_eq_ok.1 h
    exact ih (hf hb hstep) hrest

theorem mapM_congr {f g : α → Except ε β} {as : List α} (h : ∀ a ∈ as, f a = g a) :
    as.mapM f = as.mapM g := by
  induction as with
  | nil => rfl
  | cons a as ih =>
    obtain ⟨hhead, htail⟩ := List.forall_mem_cons.1 h
    rw [List.mapM_cons, List.mapM_cons, hhead, ih htail]

/-! ## Kinds of errors -/

/-- If `x` ends with an error, `p` holds of it. -/
def ErrorsIn (p : ε → Prop) (x : Except ε α) : Prop := ∀ e, x = .error e → p e

namespace ErrorsIn

variable {p : ε → Prop}

theorem ok (a : α) : ErrorsIn p (.ok a : Except ε α) := fun _ h => nomatch h

theorem error {e : ε} (h : p e) : ErrorsIn p (.error e : Except ε α) :=
  fun _ he => Except.error.inj he ▸ h

theorem bind {x : Except ε α} {f : α → Except ε β} (hx : ErrorsIn p x)
    (hf : ∀ a, ErrorsIn p (f a)) : ErrorsIn p (x >>= f) := by
  cases x with
  | error e => exact error (hx e rfl)
  | ok a => exact hf a

theorem mapM {f : α → Except ε β} (hf : ∀ a, ErrorsIn p (f a)) (as : List α) :
    ErrorsIn p (as.mapM f) := by
  induction as with
  | nil => exact ok []
  | cons a as ih =>
    rw [List.mapM_cons]
    exact (hf a).bind fun b => ih.bind fun bs => ok (b :: bs)

end ErrorsIn

end CacheGen.Outcome
