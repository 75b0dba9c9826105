import PortWarden.Proofs.Multicast
import PortWarden.Service

/-!
# Searches

A search is a run of questions about one port after the other. As long as no port is found, each
question leaves nothing open; so a search leaves what the question about the found port leaves, and
nothing if it finds none, fails or is watched no longer.
-/

namespace PortWarden

/-- The host in the state behind an allocation. -/
def World.host (w : World Host) : Host := w.state

/-- A question on the whole state leaves what it leaves on the host. -/
theorem LeavesOpen.onWorld {α : Type} {left : α → List Socket} {question : Probing Host α}
    (hquestion : LeavesOpen Logged.state left question) :
    LeavesOpen World.host left (Probing.onWorld question) := by
  intro w hb
  have hleaves := hquestion w.toLogged hb
  simp only [Probing.onWorld]
  rcases hrun : question w.toLogged with ⟨failure | a, l⟩ <;> rw [hrun] at hleaves <;>
    exact hleaves

/-- Drawing a port does not touch the host. -/
theorem host_draw (fuel : Nat) (generator : GeneratorId) (range : PortRange) (w : World Host) :
    (draw fuel generator range w).2.host = w.host := by
  simp only [draw]
  split
  · rfl
  · rcases w.randomness.pick fuel generator range with ⟨_ | port, randomness⟩ <;> rfl

section

variable {α : Type} {draw : Allocating Host UInt16} {test : UInt16 → Probing Host (Option α)}
  {missed : UInt16 → Nat → World Host → World Host}

/-- What a search finds has what every answer about a port has. -/
theorem search_answers {holds : UInt16 → α → Prop}
    (htest : ∀ port, Answers (test port) fun value => ∀ v ∈ value, holds port v)
    (steps attempts : Nat) :
    Answers (search draw test missed steps attempts : Allocating Host (Option (Found α)))
      fun found => ∀ f ∈ found, holds f.port f.value := by
  induction steps generalizing attempts with
  | zero =>
    intro w found w' hrun
    cases hrun
    simp
  | succ steps ih =>
    intro w found w' hrun
    simp only [search] at hrun
    rcases hdraw : draw w with ⟨stop | port, w₁⟩ <;> rw [hdraw] at hrun
    · cases hrun
    dsimp only at hrun
    rcases hask : test port w₁.toLogged with ⟨failure | _ | value, l⟩ <;> rw [hask] at hrun
    · cases hrun
    · exact ih (attempts + 1) _ found w' hrun
    · cases hrun
      simpa using htest port _ _ l hask

/-- A search leaves what the question about the port that it finds leaves. -/
theorem search_leavesOpen (left : UInt16 → Option α → List Socket)
    (missed : UInt16 → Nat → World Host → World Host)
    (hnone : ∀ port, left port none = []) (hdraw : ∀ w, (draw w).2.host = w.host)
    (htest : ∀ port, LeavesOpen Logged.state (left port) (test port))
    (hmissed : ∀ port attempts w, (missed port attempts w).host = w.host) (steps attempts : Nat) :
    LeavesOpen World.host (fun found => found.elim [] fun f => left f.port (some f.value))
      (search draw test missed steps attempts : Allocating Host (Option (Found α))) := by
  induction steps generalizing attempts with
  | zero => exact fun _ hb => .refl hb
  | succ steps ih =>
    intro w hb
    have hhost := hdraw w
    simp only [search]
    rcases hrun : draw w with ⟨stop | port, w₁⟩ <;> rw [hrun] at hhost
    · rw [hhost]
      exact .refl hb
    dsimp only at hhost ⊢
    have hfirst := htest port w₁.toLogged (by rwa [← hhost] at hb)
    change w₁.host.Leaves _ _ at hfirst
    rw [hhost] at hfirst
    rcases hask : test port w₁.toLogged with ⟨failure | _ | value, l⟩ <;> rw [hask] at hfirst
    · exact hfirst
    · dsimp only
      have hnothing := hfirst
      simp only [leftBy, hnone] at hnothing
      have hsame : (missed port (attempts + 1) { w₁ with toLogged := l }).host = l.state :=
        hmissed _ _ _
      have hrest := ih (attempts + 1) (missed port (attempts + 1) { w₁ with toLogged := l })
        (by rw [hsame]; exact hnothing.balanced)
      rw [hsame] at hrest
      exact hnothing.trans hrest
    · exact hfirst

end

namespace Allocator

section

variable {α : Type} (a : Allocator Host) (fuel : Nat) (membership : Bool)
  {test : UInt16 → Probing Host (Option α)} {missed : UInt16 → Nat → World Host → World Host}

/-- What a search within the limit finds has what every answer about a port has. -/
theorem searchWithinLimit_answers (missed : UInt16 → Nat → World Host → World Host)
    (holds : UInt16 → α → Prop)
    (htest : ∀ port, Answers (test port) fun value => ∀ v ∈ value, holds port v) :
    Answers (a.searchWithinLimit fuel membership test missed) fun f => holds f.port f.value := by
  intro w f w' hrun
  simp only [searchWithinLimit] at hrun
  cases hlimit : a.attemptLimit <;> rw [hlimit] at hrun <;>
    obtain ⟨found, w₁, hsearch, hrun⟩ := chain_ok hrun <;>
    cases found <;> cases hrun <;>
    exact search_answers htest _ _ w _ _ hsearch _ rfl

/-- A search within the limit leaves what the question about the port that it finds leaves. -/
theorem searchWithinLimit_leavesOpen (left : UInt16 → Option α → List Socket)
    (missed : UInt16 → Nat → World Host → World Host)
    (hnone : ∀ port, left port none = [])
    (htest : ∀ port, LeavesOpen Logged.state (left port) (test port))
    (hmissed : ∀ port attempts w, (missed port attempts w).host = w.host) :
    LeavesOpen World.host (fun f => left f.port (some f.value))
      (a.searchWithinLimit fuel membership test missed) := by
  have hsearch := search_leavesOpen left missed hnone
    (host_draw fuel a.generator (a.rangeFor membership)) htest hmissed
  unfold searchWithinLimit
  cases a.attemptLimit <;>
    exact (hsearch _ 0).report (.trivial _) fun found _ w => by cases found <;> exact ⟨rfl, rfl⟩

end

variable (p : Prober) (generator : GeneratorId) (config : Config) (fuel : Nat)

/-- Checking a port in a search leaves nothing. -/
theorem check_leavesOpen (protocol : Protocol) (address : Option Address) (port : UInt16) :
    LeavesOpen Logged.state (fun _ => [])
      ((ofConfig p.probe generator config).check protocol address port) := by
  refine (p.isAvailable_leavesOpen port protocol address).chain fun free => ?_
  cases free <;> exact .pure _

/-- Searching for a free port leaves nothing open. -/
theorem randomPort_leavesOpen (protocol : Protocol) (address : Option Address)
    (membership : Bool) :
    LeavesOpen World.host (fun _ => [])
      ((ofConfig p.probe generator config).randomPort fuel protocol address membership) := by
  have hsearch := (ofConfig p.probe generator config).searchWithinLimit_leavesOpen fuel membership
    (fun _ _ => []) (fun port attempts w => w.note (.candidateInUse port attempts)) (fun _ => rfl)
    (check_leavesOpen p generator config protocol address) (fun _ _ _ => rfl)
  exact hsearch.chain fun found => (LeavesOpen.modify fun _ => rfl).chain fun _ => .pure found.port

/-- Searching for a port to keep leaves what the keeper holds, on the address asked for or else on
the wildcard. -/
theorem randomKeeper_leavesOpen (protocol : Protocol) (address : Option Address)
    (membership : Bool) :
    LeavesOpen World.host
      (fun keeper => keptAt ((address.getD .wildcard).endpoint keeper.port) (some keeper))
      ((ofConfig p.probe generator config).randomKeeper fuel protocol address membership) := by
  have hsearch := (ofConfig p.probe generator config).searchWithinLimit_leavesOpen fuel membership
    (fun port => keptAt ((address.getD .wildcard).endpoint port)) (fun _ _ w => w) (fun _ => rfl)
    (fun port => p.keep_leavesOpen port protocol address) (fun _ _ _ => rfl)
  have hkept := (ofConfig p.probe generator config).searchWithinLimit_answers fuel membership
    (fun _ _ w => w) (fun port => p.Gives ((address.getD .wildcard).endpoint port))
    (fun port => p.keep_answers port protocol address)
  refine hsearch.report hkept fun found hfound w => ⟨rfl, ?_⟩
  have hport : found.value.port = found.port := hfound.port
  change keptAt _ _ = keptAt _ _
  rw [hport]

/-- The keeper that a search gives is for the address asked for or else for the wildcard. -/
theorem randomKeeper_answers (protocol : Protocol) (address : Option Address)
    (membership : Bool) :
    Answers ((ofConfig p.probe generator config).randomKeeper fuel protocol address membership)
      fun keeper => p.Gives ((address.getD .wildcard).endpoint keeper.port) keeper := by
  intro w keeper w' hrun
  obtain ⟨found, w₁, hsearch, hrun⟩ := chain_ok hrun
  cases hrun
  have hfound := (ofConfig p.probe generator config).searchWithinLimit_answers fuel membership
    (fun _ _ w => w) (fun port => p.Gives ((address.getD .wildcard).endpoint port))
    (fun port => p.keep_answers port protocol address) _ _ _ hsearch
  exact ⟨rfl, hfound.waived⟩

/-- Searching a given range leaves nothing open. -/
theorem randomPortInRange_leavesOpen (lower upper : UInt16) (protocol : Protocol)
    (address : Option Address) :
    LeavesOpen World.host (fun _ => []) ((ofConfig p.probe generator config).randomPortInRange
      fuel lower upper protocol address) := by
  have hsearch := search_leavesOpen (fun _ _ => []) (fun _ _ w => w) (fun _ => rfl)
    (host_draw fuel generator ⟨lower, upper⟩) (check_leavesOpen p generator config protocol address)
    (fun _ _ _ => rfl) (budget ⟨lower, upper⟩) 0
  simp only [randomPortInRange]
  cases PortRange.fault? ⟨lower, upper⟩ with
  | some fault => exact fun _ hb => .refl hb
  | none =>
    exact hsearch.report (.trivial _) fun found _ w => by cases found <;> exact ⟨rfl, rfl⟩

end Allocator

end PortWarden
