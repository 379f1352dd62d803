import Mathlib.Data.List.Forall2
import Mathlib.Tactic.Common

/-! # Taking apart computations that may raise

`Except` computations that succeeded are peeled bind by bind: the first part succeeded, and the
second part succeeded on its value.
-/

namespace Except

universe u v

variable {ε : Type v} {α β : Type u}

theorem bind_eq_ok {x : Except ε α} {f : α → Except ε β} {b : β} :
    (x >>= f) = .ok b ↔ ∃ a, x = .ok a ∧ f a = .ok b := by
  cases x with
  | error e => exact ⟨nofun, fun ⟨_, h, _⟩ => nomatch h⟩
  | ok a => exact ⟨fun h => ⟨a, rfl, h⟩, fun ⟨_, h, hf⟩ => by cases h; exact hf⟩

theorem bind_eq_error {x : Except ε α} {f : α → Except ε β} {e : ε} :
    (x >>= f) = .error e ↔ x = .error e ∨ ∃ a, x = .ok a ∧ f a = .error e := by
  cases x with
  | error e' =>
      refine ⟨fun h => Or.inl (congrArg Except.error (Except.error.inj h)), ?_⟩
      rintro (h | ⟨a, h, -⟩)
      · cases h
        rfl
      · cases h
  | ok a =>
      refine ⟨fun h => Or.inr ⟨a, rfl, h⟩, ?_⟩
      rintro (h | ⟨a', h, hf⟩)
      · cases h
      · cases h
        exact hf

theorem map_eq_ok {x : Except ε α} {f : α → β} {b : β} :
    x.map f = .ok b ↔ ∃ a, x = .ok a ∧ f a = b := by
  cases x with
  | error e => exact ⟨nofun, fun ⟨_, h, _⟩ => nomatch h⟩
  | ok a =>
      refine ⟨fun h => ⟨a, rfl, ?_⟩, fun ⟨_, h, hf⟩ => ?_⟩
      · simpa [Except.map] using h
      · cases h; rw [← hf]; rfl

/-- A computation that does not raise returns a value. -/
theorem exists_ok_of_forall_ne_error {x : Except ε α} (h : ∀ e, x ≠ .error e) :
    ∃ a, x = .ok a := by
  cases x with
  | error e => exact absurd rfl (h e)
  | ok a => exact ⟨a, rfl⟩

/-- What a test of the result finds. -/
theorem exists_ok_of_any {x : Except ε α} {p : α → Bool} (h : x.toOption.any p = true) :
    ∃ a, x = .ok a ∧ p a = true := by
  cases x with
  | error e => cases h
  | ok a => exact ⟨a, rfl, h⟩

theorem mapM_eq_ok_of_forall {f : α → Except ε β} : ∀ {l : List α},
    (∀ a ∈ l, ∃ b, f a = .ok b) → ∃ bs, l.mapM f = .ok bs ∧ bs.length = l.length := by
  intro l
  induction l with
  | nil => intro _; exact ⟨[], rfl, rfl⟩
  | cons a l ih =>
      intro h
      obtain ⟨b, hb⟩ := h a (by simp)
      obtain ⟨bs, hbs, hl⟩ := ih fun x hx => h x (by simp [hx])
      refine ⟨b :: bs, ?_, by simp [hl]⟩
      rw [List.mapM_cons, hb, hbs]
      rfl

theorem mapM_eq_ok_map {f : α → Except ε β} {g : α → β} : ∀ {l : List α},
    (∀ a ∈ l, f a = .ok (g a)) → l.mapM f = .ok (l.map g) := by
  intro l
  induction l with
  | nil => intro _; rfl
  | cons a l ih =>
      intro h
      rw [List.mapM_cons, h a (by simp), ih fun x hx => h x (List.mem_cons_of_mem _ hx)]
      rfl

/-- A function of the results may be applied before or after a traversal. -/
theorem mapM_map {γ : Type u} (f : α → Except ε β) (g : β → γ) : ∀ l : List α,
    l.mapM (fun a => (f a).map g) = (l.mapM f).map (List.map g) := by
  intro l
  induction l with
  | nil => rfl
  | cons a l ih =>
      rw [List.mapM_cons, List.mapM_cons, ih]
      cases f a with
      | error e => rfl
      | ok b => cases l.mapM f <;> rfl

/-- **A traversal raises what its first failing element raises.** -/
theorem mapM_eq_error_iff {f : α → Except ε β} {e : ε} : ∀ {l : List α},
    l.mapM f = .error e ↔ ∃ front a rest, l = front ++ a :: rest ∧
      (∀ b ∈ front, ∃ v, f b = .ok v) ∧ f a = .error e := by
  intro l
  induction l with
  | nil =>
      rw [List.mapM_nil]
      refine ⟨nofun, ?_⟩
      rintro ⟨front, a, rest, h, -⟩
      cases front <;> cases h
  | cons x l ih =>
      rw [List.mapM_cons]
      constructor
      · intro h
        cases hx : f x with
        | error e' =>
            rw [hx] at h
            obtain rfl : e' = e := Except.error.inj h
            exact ⟨[], x, l, rfl, nofun, hx⟩
        | ok v =>
            rw [hx] at h
            have hl : l.mapM f = .error e := by
              cases hl : l.mapM f with
              | error e' => rw [hl] at h; exact h
              | ok vs => rw [hl] at h; cases h
            obtain ⟨front, a, rest, rfl, hfront, ha⟩ := ih.mp hl
            refine ⟨x :: front, a, rest, rfl, ?_, ha⟩
            intro b hb
            rcases List.mem_cons.mp hb with rfl | hb
            · exact ⟨v, hx⟩
            · exact hfront b hb
      · rintro ⟨front, a, rest, h, hfront, ha⟩
        cases front with
        | nil =>
            cases h
            rw [ha]
            rfl
        | cons y front =>
            cases h
            obtain ⟨v, hv⟩ := hfront x List.mem_cons_self
            have hl := ih.mpr ⟨front, a, rest, rfl,
              fun b hb => hfront b (List.mem_cons_of_mem _ hb), ha⟩
            rw [hv, hl]
            rfl

/-- A traversal succeeds with the results of its elements. -/
theorem mapM_eq_ok_iff {f : α → Except ε β} : ∀ {l : List α} {bs : List β},
    l.mapM f = .ok bs ↔ List.Forall₂ (fun a b => f a = .ok b) l bs := by
  intro l
  induction l with
  | nil =>
      intro bs
      rw [List.mapM_nil, List.forall₂_nil_left_iff]
      exact ⟨fun h => (Except.ok.inj h).symm, fun h => h ▸ rfl⟩
  | cons a l ih =>
      intro bs
      rw [List.mapM_cons, List.forall₂_cons_left_iff, bind_eq_ok]
      constructor
      · rintro ⟨b, hb, h⟩
        obtain ⟨bs', hbs, h⟩ := bind_eq_ok.mp h
        exact ⟨b, bs', hb, ih.mp hbs, (Except.ok.inj h).symm⟩
      · rintro ⟨b, bs', hb, hbs, rfl⟩
        exact ⟨b, hb, bind_eq_ok.mpr ⟨bs', ih.mpr hbs, rfl⟩⟩

theorem mapM_ofFn {n : Nat} {f : α → Except ε β} {a : Fin n → α} {b : Fin n → β}
    (h : ∀ i, f (a i) = .ok (b i)) : (List.ofFn a).mapM f = .ok (List.ofFn b) := by
  rw [mapM_eq_ok_iff, List.forall₂_iff_get]
  refine ⟨by simp, ?_⟩
  intro i _ _
  simpa using h _

/-- What is read of the results, where it can be read of the elements. -/
theorem map_eq_map_of_mapM {γ : Type*} {f : α → Except ε β} {g : β → γ} {h : α → γ}
    (hf : ∀ a b, f a = .ok b → g b = h a) {l : List α} {bs : List β} (hbs : l.mapM f = .ok bs) :
    bs.map g = l.map h := by
  have hall := mapM_eq_ok_iff.mp hbs
  clear hbs
  induction hall with
  | nil => rfl
  | cons hab _ ih => rw [List.map_cons, List.map_cons, hf _ _ hab, ih]

/-- A traversal that succeeds does so at every element. -/
theorem exists_ok_of_mapM {f : α → Except ε β} {l : List α} {bs : List β} (hbs : l.mapM f = .ok bs)
    {a : α} (ha : a ∈ l) : ∃ b ∈ bs, f a = .ok b := by
  have hall := mapM_eq_ok_iff.mp hbs
  clear hbs
  induction hall with
  | nil => cases ha
  | @cons a' b l bs hab _ ih =>
      rcases List.mem_cons.mp ha with rfl | ha
      · exact ⟨b, List.mem_cons_self, hab⟩
      · obtain ⟨b', hb', hab'⟩ := ih ha
        exact ⟨b', List.mem_cons_of_mem _ hb', hab'⟩

/-- What a traversal gives comes from one of its elements. -/
theorem exists_of_mem_mapM {f : α → Except ε β} {l : List α} {bs : List β} (hbs : l.mapM f = .ok bs)
    {b : β} (hb : b ∈ bs) : ∃ a ∈ l, f a = .ok b := by
  have hall := mapM_eq_ok_iff.mp hbs
  clear hbs
  induction hall with
  | nil => cases hb
  | @cons a b' l bs hab _ ih =>
      rcases List.mem_cons.mp hb with rfl | hb
      · exact ⟨a, List.mem_cons_self, hab⟩
      · obtain ⟨a', ha', hab'⟩ := ih hb
        exact ⟨a', List.mem_cons_of_mem _ ha', hab'⟩

/-- What an enumerated traversal gives at an index comes from that index. -/
theorem exists_ok_of_mapM_zipIdx {f : α × Nat → Except ε β} : ∀ {l : List α} {bs : List β} {k : Nat},
    (l.zipIdx k).mapM f = .ok bs → ∀ p ∈ bs.zipIdx k, ∃ a ∈ l, f (a, p.2) = .ok p.1 := by
  intro l
  induction l with
  | nil =>
      intro bs k h p hp
      rw [List.zipIdx_nil, List.mapM_nil] at h
      cases h
      cases hp
  | cons a l ih =>
      intro bs k h p hp
      rw [List.zipIdx_cons, List.mapM_cons] at h
      obtain ⟨b, hb, h⟩ := bind_eq_ok.mp h
      obtain ⟨bs', hbs, h⟩ := bind_eq_ok.mp h
      cases h
      rw [List.zipIdx_cons] at hp
      rcases List.mem_cons.mp hp with rfl | hp
      · exact ⟨a, List.mem_cons_self, hb⟩
      · obtain ⟨a', ha', hp'⟩ := ih hbs p hp
        exact ⟨a', List.mem_cons_of_mem _ ha', hp'⟩

/-- A traversal that gives a value for some of its elements. -/
theorem mapM_filter {f : α → Except ε (Option β)} {p : α → Bool} {g : α → β} {l : List α}
    (h : ∀ a ∈ l, f a = .ok (if p a then some (g a) else none)) :
    ∃ bs, l.mapM f = .ok bs ∧ bs.filterMap id = (l.filter p).map g := by
  refine ⟨_, mapM_eq_ok_map h, ?_⟩
  clear h
  induction l with
  | nil => rfl
  | cons a l ih =>
      rw [List.map_cons]
      cases hp : p a with
      | false =>
          rw [if_neg (by decide), List.filter_cons_of_neg (by simp [hp])]
          exact ih
      | true =>
          rw [if_pos rfl, List.filter_cons_of_pos hp, List.map_cons, ← ih]
          rfl

theorem foldlM_congr {γ : Type*} {f g : β → γ → Except ε β} : ∀ {l : List γ} {b : β},
    (∀ a ∈ l, ∀ b, f b a = g b a) → l.foldlM f b = l.foldlM g b := by
  intro l
  induction l with
  | nil => intro b _; rfl
  | cons a l ih =>
      intro b h
      rw [List.foldlM_cons, List.foldlM_cons, h a List.mem_cons_self]
      refine bind_congr ?_
      intro b'
      exact ih fun x hx => h x (List.mem_cons_of_mem _ hx)

/-- A loop over a range whose every iteration succeeds. -/
theorem foldlM_range_ok {f : β → Nat → Except ε β} (g : Nat → β) : ∀ {n : Nat},
    (∀ i < n, f (g i) i = .ok (g (i + 1))) → (List.range n).foldlM f (g 0) = .ok (g n) := by
  intro n
  induction n with
  | zero => intro _; rfl
  | succ n ih =>
      intro h
      rw [List.range_succ, List.foldlM_append, ih fun i hi => h i (Nat.lt_succ_of_lt hi)]
      change (f (g n) n >>= fun b => pure b) = _
      rw [h n (Nat.lt_succ_self n)]
      rfl

/-- A loop over a range raises what its first failing iteration raises. -/
theorem foldlM_range_error {f : β → Nat → Except ε β} (g : Nat → β) {k n : Nat} {e : ε} (hk : k < n)
    (h : ∀ i < k, f (g i) i = .ok (g (i + 1))) (he : f (g k) k = .error e) :
    (List.range n).foldlM f (g 0) = .error e := by
  have hsplit : List.range n = List.range k ++ k :: List.range' (k + 1) (n - k - 1) := by
    rw [List.range_eq_range', List.range_eq_range', ← List.range'_succ, show n - k - 1 + 1 = n - k by omega]
    have := @List.range'_append_1 0 k (n - k)
    rw [Nat.zero_add, Nat.add_sub_cancel' (Nat.le_of_lt hk)] at this
    exact this.symm
  rw [hsplit, List.foldlM_append, foldlM_range_ok g h]
  change (f (g k) k >>= _) = _
  rw [he]
  rfl

/-- **Loop rule**: what every iteration keeps holds after the loop. -/
theorem foldlM_preserves {γ : Type*} {f : β → γ → Except ε β} {I : β → Prop} : ∀ {l : List γ} {b b' : β},
    (∀ a ∈ l, ∀ s t, I s → f s a = .ok t → I t) → I b → l.foldlM f b = .ok b' → I b' := by
  intro l
  induction l with
  | nil =>
      intro b b' _ hb h
      cases h
      exact hb
  | cons a l ih =>
      intro b b' hstep hb h
      rw [List.foldlM_cons] at h
      obtain ⟨s, hs, h⟩ := bind_eq_ok.mp h
      exact ih (fun x hx => hstep x (List.mem_cons_of_mem _ hx)) (hstep a List.mem_cons_self b s hb hs) h

/-! ### The errors of a computation -/

/-- Every error of the computation has the property. -/
def ErrorsIn (P : ε → Prop) (x : Except ε α) : Prop :=
  ∀ e, x = .error e → P e

section

variable {P : ε → Prop}

theorem errorsIn_ok (a : α) : ErrorsIn P (.ok a) :=
  fun _ h => nomatch h

theorem errorsIn_error {e : ε} (h : P e) : ErrorsIn P (.error e : Except ε α) := by
  intro e' he
  cases he
  exact h

theorem ErrorsIn.bind {x : Except ε α} {f : α → Except ε β} (hx : x.ErrorsIn P)
    (hf : ∀ a, x = .ok a → (f a).ErrorsIn P) : (x >>= f).ErrorsIn P := by
  intro e h
  rcases bind_eq_error.mp h with h | ⟨a, ha, h⟩
  · exact hx e h
  · exact hf a ha e h

theorem ErrorsIn.mapM {f : α → Except ε β} {l : List α} (h : ∀ a ∈ l, (f a).ErrorsIn P) :
    (l.mapM f).ErrorsIn P := by
  intro e he
  obtain ⟨front, a, rest, rfl, -, ha⟩ := mapM_eq_error_iff.mp he
  exact h a (List.mem_append_right _ List.mem_cons_self) e ha

end

end Except
