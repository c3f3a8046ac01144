import MessageService.Lib.Tx

/-!
# How far a transaction moves the store

`Tx.Moves R x`: a successful run of `x` takes the store along the relation `R`. For a reflexive and
transitive `R` there is a rule for each primitive, so that a `do` block is taken apart line by line;
`Tx.Keeps` is the case of an equality.
-/

namespace MessageService.Lib.Tx

universe u v w

variable {σ : Type u} {ε : Type v} {α β : Type w} {R : σ → σ → Prop}

/-- A successful run of the transaction takes the store along `R`. -/
def Moves (R : σ → σ → Prop) (x : Tx σ ε α) : Prop := ∀ s a s', x s = .ok (a, s') → R s s'

namespace Moves

theorem write {g : σ → σ} (h : ∀ s, R s (g s)) : Moves R (Tx.write g : Tx σ ε Unit) := by
  intro s a s' hw
  rw [← ok_write.mp hw]
  exact h s

/-- A unit of work takes the store along `R` as well. -/
theorem commit [Std.Refl R] {x : Tx σ ε α} (hx : Moves R x) (fate : Fate) (s : σ) :
    R s (x.commit fate s).2 := by
  obtain ⟨h, -⟩ | ⟨a, s', hok, h, -⟩ := commit_spec x fate s
  · rw [h]
    exact refl s
  · rw [h]
    exact hx s a s' hok

theorem resume [Std.Refl R] {γ : Type w} {x : Tx σ ε α} (hx : Moves R x) {fate : Fate}
    {next : α → γ} {stop : Outcome ε Unit → γ} (s : σ) : R s (x.resume fate next stop s).2 := by
  rw [resume_snd]
  exact hx.commit fate s

section

variable [Std.Refl R]

theorem pure (a : α) : Moves R (Pure.pure a : Tx σ ε α) := by
  intro s b s' h
  rw [(ok_pure.mp h).2]
  exact refl s'

theorem read (g : σ → α) : Moves R (Tx.read g : Tx σ ε α) := by
  intro s a s' h
  rw [(ok_read.mp h).2]
  exact refl s'

theorem require (c : Prop) [Decidable c] (e : ε) : Moves R (Tx.require c e) := by
  intro s a s' h
  rw [(ok_require.mp h).2]
  exact refl s'

theorem when (c : Prop) [Decidable c] {x : Tx σ ε Unit} (hx : Moves R x) :
    Moves R (Tx.when c x) := by
  intro s a s' h
  obtain ⟨-, h⟩ | ⟨-, rfl⟩ := ok_when.mp h
  · exact hx s a s' h
  · exact refl s

end

theorem bind [IsTrans σ R] {x : Tx σ ε α} {k : α → Tx σ ε β} (hx : Moves R x)
    (hk : ∀ a, Moves R (k a)) : Moves R (x >>= k) := by
  intro s b s' h
  obtain ⟨a, t, h1, h2⟩ := ok_bind.mp h
  exact IsTrans.trans _ _ _ (hx s a t h1) (hk a t b s' h2)

theorem ite {c : Prop} [Decidable c] {x y : Tx σ ε α} (hx : Moves R x) (hy : Moves R y) :
    Moves R (if c then x else y) := by
  by_cases h : c
  · rw [if_pos h]
    exact hx
  · rw [if_neg h]
    exact hy

end Moves

end MessageService.Lib.Tx
