import PortWarden.Host.SystemCall

/-!
# Chains of calls

Questions and system calls are chains of steps on a state, ended by the first failure. A chain is
taken apart here once. A host whose faults are permanent answers each call by a rule that the calls
before it leave as it is.
-/

namespace PortWarden

section

variable {ε σ α β : Type}

/-- A chain goes on from the state that its first step leaves, unless that step fails. -/
theorem chain_apply (x : ExceptT ε (StateM σ) α) (f : α → ExceptT ε (StateM σ) β) (s : σ) :
    (x >>= f) s =
      match x s with
      | (.ok a, t) => f a t
      | (.error e, t) => (.error e, t) := by
  change (match x s with | (r, t) => ExceptT.bindCont f r t) = _
  rcases x s with ⟨_ | _, _⟩ <;> rfl

/-- A chain that passes has passed its first step and then the rest. -/
theorem chain_ok {x : ExceptT ε (StateM σ) α} {f : α → ExceptT ε (StateM σ) β} {s t : σ} {b : β}
    (hrun : (x >>= f) s = (.ok b, t)) : ∃ a m, x s = (.ok a, m) ∧ f a m = (.ok b, t) := by
  rw [chain_apply] at hrun
  rcases hx : x s with ⟨e | a, m⟩ <;> rw [hx] at hrun
  · cases (Prod.mk.inj hrun).1
  · exact ⟨a, m, rfl, hrun⟩

/-- What a chain comes to is what its rest comes to after its first step. -/
theorem chain_fst {x : ExceptT ε (StateM σ) α} {f : α → ExceptT ε (StateM σ) β} {s : σ}
    {first : Except ε α} {rest : α → Except ε β} (hx : (x s).1 = first)
    (hf : ∀ a t, x s = (.ok a, t) → (f a t).1 = rest a) : ((x >>= f) s).1 = first >>= rest := by
  subst hx
  rw [chain_apply]
  rcases hrun : x s with ⟨e | a, t⟩
  · rfl
  · exact hf a t hrun

/-- A property that every answer to a question has. -/
def Answers (question : ExceptT ε (StateM σ) α) (holds : α → Prop) : Prop :=
  ∀ s a t, question s = (.ok a, t) → holds a

/-- Something always holds. -/
theorem Answers.trivial (question : ExceptT ε (StateM σ) α) : Answers question fun _ => True :=
  fun _ _ _ _ => True.intro

/-- The last step of a chain answers for it. -/
theorem Answers.chain {x : ExceptT ε (StateM σ) α} {f : α → ExceptT ε (StateM σ) β}
    {holds : β → Prop} (hf : ∀ a, Answers (f a) holds) : Answers (x >>= f) holds := by
  intro s b t hrun
  obtain ⟨a, m, -, hrest⟩ := chain_ok hrun
  exact hf a m b t hrest

/-- A property that every failure of a question has. -/
def Fails (question : ExceptT ε (StateM σ) α) (holds : ε → Prop) : Prop :=
  ∀ s e t, question s = (.error e, t) → holds e

namespace Fails

variable {holds : ε → Prop}

/-- An answer that is known beforehand is no failure. -/
theorem pure (a : α) : Fails (pure a : ExceptT ε (StateM σ) α) holds := by
  intro s e t hrun
  cases hrun

/-- A failure that is known beforehand is the only one. -/
theorem throw {e : ε} (he : holds e) : Fails (throw e : ExceptT ε (StateM σ) α) holds := by
  intro s e' t hrun
  cases hrun
  exact he

/-- A change of the state never fails. -/
theorem modify (f : σ → σ) : Fails (modify f : ExceptT ε (StateM σ) Unit) holds := by
  intro s e t hrun
  cases hrun

/-- A chain fails as one of its steps does. -/
theorem chain {x : ExceptT ε (StateM σ) α} {f : α → ExceptT ε (StateM σ) β}
    (hx : Fails x holds) (hf : ∀ a, Fails (f a) holds) : Fails (x >>= f) holds := by
  intro s e t hrun
  rw [chain_apply] at hrun
  rcases hfirst : x s with ⟨_ | a, m⟩ <;> rw [hfirst] at hrun
  · cases hrun
    exact hx s e t hfirst
  · exact hf a m e t hrun

end Fails

/-- A chain that is over leaves the state alone. -/
theorem pure_apply (a : α) (s : σ) : (pure a : ExceptT ε (StateM σ) α) s = (.ok a, s) := rfl

/-- A change of the state never fails. -/
theorem modify_apply (f : σ → σ) (s : σ) :
    (modify f : ExceptT ε (StateM σ) Unit) s = (.ok (), f s) := rfl

end

namespace Fault

/-- A fault that makes every call that it is about fail, and never wears off. -/
def Permanent (f : Fault) : Prop := f.skip = 0 ∧ f.times = none

/-- Permanent faults are not counted down: the first that is about a call decides it. -/
theorem strike_of_permanent {operation : Operation} {site : Option CallSite} {fs : List Fault}
    (hfs : ∀ f ∈ fs, f.Permanent) :
    strike operation site fs = ((fs.find? (·.concerns operation site)).map (·.errno), fs) := by
  induction fs with
  | nil => rfl
  | cons f fs ih =>
    have hrest := ih fun g hg => hfs g (.tail _ hg)
    obtain ⟨hskip, htimes⟩ := hfs f (.head _)
    cases hconcerns : f.concerns operation site <;>
      simp [strike, hconcerns, hskip, htimes, hrest]

end Fault

namespace Host

/-- A host on which no call changes which later calls fail. -/
def Steady (h : Host) : Prop := ∀ f ∈ h.faults, f.Permanent

/-- Only its faults decide whether a host is steady. -/
theorem Steady.congr {h h' : Host} (hs : h.Steady) (hfaults : h'.faults = h.faults) :
    h'.Steady := by
  simpa only [Steady, hfaults] using hs

/-- A host without faults is steady. -/
theorem Steady.of_no_faults {h : Host} (hfaults : h.faults = []) : h.Steady := by
  simp [Steady, hfaults]

/-- The error that the permanent faults of a host give a call. -/
def faultFor? (h : Host) (operation : Operation) (site : Option CallSite) : Option Errno :=
  (h.faults.find? (·.concerns operation site)).map (·.errno)

/-- Without faults no call is given an error. -/
theorem faultFor?_of_no_faults {h : Host} (hfaults : h.faults = []) (operation : Operation)
    (site : Option CallSite) : h.faultFor? operation site = none := by
  simp [faultFor?, hfaults]

/-- A steady host is not changed by counting a call. -/
theorem strike_of_steady {h : Host} (hs : h.Steady) (operation : Operation)
    (site : Option CallSite) : h.strike operation site = (h.faultFor? operation site, h) := by
  simp [strike, faultFor?, Fault.strike_of_permanent hs]

end Host

end PortWarden
