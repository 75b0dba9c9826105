import PortWarden.Proofs.Asking
import PortWarden.Proofs.Drawing

/-!
# How searches end

A search that finds a port has asked about it last. The questions before were about other ports that
it drew, have asked the host for nothing else, and have left nothing open.
-/

namespace PortWarden

section

variable {α : Type} {draw : Allocating Host UInt16} {test : UInt16 → Probing Host (Option α)}
  {missed : UInt16 → Nat → World Host → World Host}

/-- A search that finds a port ends with the question about it. What holds of the host before the
search, and is kept by each question about a port that is missed, holds when that question is
asked. -/
theorem found_of_search {kept : Host → Prop} {holds : UInt16 → Prop}
    (hdraw : ∀ w, (draw w).2.host = w.host) (hdrawn : Answers draw holds)
    (hmissed : ∀ port attempts w, (missed port attempts w).host = w.host)
    (hkeeps : ∀ port l l', holds port → kept l.state → test port l = (.ok none, l') → kept l'.state)
    {steps attempts : Nat} {w w' : World Host} {found : Found α} (hkept : kept w.host)
    (hrun : search draw test missed steps attempts w = (.ok (some found), w')) :
    holds found.port ∧
      ∃ l, kept l.state ∧ test found.port l = (.ok (some found.value), w'.toLogged) := by
  induction steps generalizing attempts w with
  | zero => cases hrun
  | succ steps ih =>
    have hhost := hdraw w
    simp only [search] at hrun
    rcases hport : draw w with ⟨stop | port, w₁⟩ <;> rw [hport] at hrun hhost
    · cases hrun
    dsimp only at hrun hhost
    have hholds : holds port := hdrawn w port w₁ hport
    have hbefore : kept w₁.toLogged.state := by
      change kept w₁.host
      rwa [hhost]
    rcases hask : test port w₁.toLogged with ⟨failure | _ | value, l⟩ <;> rw [hask] at hrun
    · cases hrun
    · refine ih ?_ hrun
      rw [hmissed]
      exact hkeeps port _ l hholds hbefore hask
    · cases hrun
      exact ⟨hholds, w₁.toLogged, hbefore, hask⟩

/-- A search asks for what the questions about the ports that it draws ask for. -/
theorem search_asksOnly {entries : List InterfaceEntry} {may : Action → Prop}
    {holds : UInt16 → Prop} (missed : UInt16 → Nat → World Host → World Host)
    (hdraw : ∀ w, (draw w).2.host = w.host) (hdrawn : Answers draw holds)
    (hmissed : ∀ port attempts w, (missed port attempts w).host = w.host)
    (htest : ∀ port, holds port → AsksOnly Logged.state entries may (test port))
    (steps attempts : Nat) :
    AsksOnly World.host entries may
      (search draw test missed steps attempts : Allocating Host (Option (Found α))) := by
  induction steps generalizing attempts with
  | zero => exact fun w _ => .refl may w.host
  | succ steps ih =>
    intro w hentries
    have hhost := hdraw w
    simp only [search]
    rcases hport : draw w with ⟨stop | port, w₁⟩ <;> rw [hport] at hhost <;> dsimp only at hhost ⊢
    · rw [hhost]
      exact .refl may w.host
    have hfirst := htest port (hdrawn w port w₁ hport) w₁.toLogged
      (by rw [← hentries, ← hhost]; rfl)
    change w₁.host.Asked may _ at hfirst
    rw [hhost] at hfirst
    rcases hask : test port w₁.toLogged with ⟨failure | _ | value, l⟩ <;> rw [hask] at hfirst
    · exact hfirst
    · have hrest := ih (attempts + 1) (missed port (attempts + 1) { w₁ with toLogged := l })
      rw [hmissed] at hrest
      exact hfirst.trans (hrest (hfirst.interfaces.trans hentries))
    · exact hfirst

end

namespace Prober

variable (p : Prober)

/-- What a search asks the host for: questions about the ports of its range. -/
def AsksIn (range : PortRange) (entries : List InterfaceEntry) (protocol : Protocol)
    (address : Option Address) (action : Action) : Prop :=
  ∃ port, range.contains port = true ∧ p.Asks entries protocol address port action

/-- A host on which the last question about a port was answered in a certain way. The questions
before it in the search were about ports of the range, and have left nothing open. -/
def Concludes {α : Type} (range : PortRange) (protocol : Protocol) (address : Option Address)
    (question : Probing Host α) (answer : α) (h h' : Host) : Prop :=
  ∃ l l', (h.Balanced → h.Leaves l.state []) ∧
    h.Asked (p.AsksIn range h.interfaces protocol address) l.state ∧
    question l = (.ok answer, l') ∧ l'.state = h'

end Prober

namespace Allocator

variable (p : Prober) (generator : GeneratorId) (config : Config) (fuel : Nat)

/-- Checking a port in a search is checking it. -/
theorem check_apply {protocol : Protocol} {address : Option Address} {port : UInt16}
    {l l' : Logged Host} {answer : Option Unit}
    (hrun : (ofConfig p.probe generator config).check protocol address port l = (.ok answer, l')) :
    p.isAvailable port protocol address l = (.ok answer.isSome, l') := by
  obtain ⟨free, m, hcheck, hrest⟩ := chain_ok hrun
  cases free <;> cases hrest <;> exact hcheck

/-- Checking a port in a search asks for what checking it asks for. -/
theorem check_asksOnly (entries : List InterfaceEntry) (protocol : Protocol)
    (address : Option Address) (port : UInt16) :
    AsksOnly Logged.state entries (p.Asks entries protocol address port)
      ((ofConfig p.probe generator config).check protocol address port) := by
  refine (p.isAvailable_asksOnly entries port protocol address).chain fun free => ?_
  cases free <;> exact .pure _

section

variable {α : Type} {range : PortRange} {protocol : Protocol} {address : Option Address}
  {test : UInt16 → Probing Host (Option α)}

/-- A search in a range that finds a port ends with the question about it. -/
theorem search_concludes (left : UInt16 → Option α → List Socket)
    (missed : UInt16 → Nat → World Host → World Host)
    (hnone : ∀ port, left port none = [])
    (htest : ∀ port, LeavesOpen Logged.state (left port) (test port))
    (hasks : ∀ entries port,
      AsksOnly Logged.state entries (p.Asks entries protocol address port) (test port))
    (hmissed : ∀ port attempts w, (missed port attempts w).host = w.host)
    {steps attempts : Nat} {w w' : World Host} {found : Found α}
    (hrun : search (draw fuel generator range) test missed steps attempts w =
      (.ok (some found), w')) :
    range.contains found.port = true ∧
      p.Concludes range protocol address (test found.port) (some found.value) w.host w'.host := by
  -- what a port that is tried in vain keeps: nothing is left, and only the range was asked about
  let kept (h : Host) : Prop :=
    (w.host.Balanced → w.host.Leaves h []) ∧
      w.host.Asked (p.AsksIn range w.host.interfaces protocol address) h
  have hkeeps (port : UInt16) (l l' : Logged Host) (hport : range.contains port = true)
      (hkept : kept l.state) (hask : test port l = (.ok none, l')) : kept l'.state := by
    have hasked := hasks w.host.interfaces port l hkept.2.interfaces
    rw [hask] at hasked
    refine ⟨fun hb => ?_, hkept.2.trans (hasked.mono fun _ haction => ⟨port, hport, haction⟩)⟩
    have hleaves := htest port l (hkept.1 hb).balanced
    rw [hask] at hleaves
    simp only [leftBy, hnone] at hleaves
    exact (hkept.1 hb).trans hleaves
  have hkept : kept w.host := ⟨fun hb => .refl hb, .refl _ _⟩
  obtain ⟨hport, l, ⟨hleaves, hasked⟩, hlast⟩ := found_of_search (host_draw fuel generator range)
    draw_answers hmissed hkeeps hkept hrun
  exact ⟨hport, l, _, hleaves, hasked, hlast, rfl⟩

end

section

variable (entries : List InterfaceEntry) (protocol : Protocol) (address : Option Address)

/-- What is asked about a port of a range is asked in the search of it. -/
theorem asksIn_of_asks {entries : List InterfaceEntry} {protocol : Protocol}
    {address : Option Address} {α : Type} {range : PortRange} {question : UInt16 → Probing Host α}
    (hasks : ∀ port,
      AsksOnly Logged.state entries (p.Asks entries protocol address port) (question port))
    (port : UInt16) (hport : range.contains port = true) :
    AsksOnly Logged.state entries (p.AsksIn range entries protocol address) (question port) :=
  (hasks port).mono fun _ haction => ⟨port, hport, haction⟩

/-- A search within the limit asks about ports of the range. -/
theorem searchWithinLimit_asksOnly {α : Type} (test : UInt16 → Probing Host (Option α))
    (missed : UInt16 → Nat → World Host → World Host) (membership : Bool)
    (hmissed : ∀ port attempts w, (missed port attempts w).host = w.host)
    (hasks : ∀ port,
      AsksOnly Logged.state entries (p.Asks entries protocol address port) (test port)) :
    AsksOnly World.host entries (p.AsksIn (config.rangeFor membership) entries protocol address)
      ((ofConfig p.probe generator config).searchWithinLimit fuel membership test missed) := by
  let allocator := ofConfig p.probe generator config
  intro w hentries
  have hsearch := search_asksOnly missed
    (host_draw fuel allocator.generator (allocator.rangeFor membership)) draw_answers hmissed
    (asksIn_of_asks p hasks) (allocator.steps fuel) 0 w hentries
  rw [searchWithinLimit_apply]
  rcases hrun : search (draw fuel allocator.generator (allocator.rangeFor membership)) test missed
    (allocator.steps fuel) 0 w with ⟨stop | _ | found, w'⟩ <;> rw [hrun] at hsearch <;>
    exact hsearch

/-- Picking a port asks about ports of the range. -/
theorem randomPort_asksOnly (membership : Bool) :
    AsksOnly World.host entries (p.AsksIn (config.rangeFor membership) entries protocol address)
      ((ofConfig p.probe generator config).randomPort fuel protocol address membership) := by
  have hsearch := searchWithinLimit_asksOnly p generator config fuel entries protocol address
    ((ofConfig p.probe generator config).check protocol address)
    (fun port attempts w => w.note (.candidateInUse port attempts)) membership (fun _ _ _ => rfl)
    (check_asksOnly p generator config entries protocol address)
  refine hsearch.chain fun found => ?_
  have hnote : AsksOnly World.host entries
      (p.AsksIn (config.rangeFor membership) entries protocol address)
      (modify (·.note (.portSelected found.port protocol found.attempts)) :
        Allocating Host Unit) := .modify fun _ => rfl
  exact hnote.chain fun _ => .pure found.port

/-- Claiming a random port asks about ports of the range. -/
theorem randomKeeper_asksOnly (membership : Bool) :
    AsksOnly World.host entries (p.AsksIn (config.rangeFor membership) entries protocol address)
      ((ofConfig p.probe generator config).randomKeeper fuel protocol address membership) := by
  have hsearch := searchWithinLimit_asksOnly p generator config fuel entries protocol address
    (fun port => p.keep port protocol address) (fun _ _ w => w) membership (fun _ _ _ => rfl)
    fun port => p.keep_asksOnly entries port protocol address
  refine hsearch.chain fun found => ?_
  have hnote : AsksOnly World.host entries
      (p.AsksIn (config.rangeFor membership) entries protocol address)
      (modify (·.note (.portKept found.port protocol found.attempts)) :
        Allocating Host Unit) := .modify fun _ => rfl
  exact hnote.chain fun _ => .pure found.value

/-- Picking a port from a given range asks about ports of that. -/
theorem randomPortInRange_asksOnly (lower upper : UInt16) :
    AsksOnly World.host entries (p.AsksIn ⟨lower, upper⟩ entries protocol address)
      ((ofConfig p.probe generator config).randomPortInRange fuel lower upper protocol
        address) := by
  have hnote (event : Event) : AsksOnly World.host entries
      (p.AsksIn ⟨lower, upper⟩ entries protocol address)
      (modify (·.note event) : Allocating Host Unit) := .modify fun _ => rfl
  have hsearch := search_asksOnly (fun _ _ w => w) (host_draw fuel generator ⟨lower, upper⟩)
    draw_answers (fun _ _ _ => rfl)
    (asksIn_of_asks p (check_asksOnly p generator config entries protocol address))
    (budget ⟨lower, upper⟩) 0
  simp only [randomPortInRange]
  cases PortRange.fault? ⟨lower, upper⟩ with
  | some fault => exact fun w _ => .refl _ w.host
  | none =>
    refine AsksOnly.chain hsearch fun found => ?_
    cases found with
    | none => exact (hnote _).chain fun _ => .pure none
    | some found => exact (hnote _).chain fun _ => .pure (some found.port)

end

section

variable {protocol : Protocol} {address : Option Address} {w w' : World Host} {port : UInt16}

/-- A search that ends with the check in it ends with the check. -/
theorem concludes_check {range : PortRange} {h h' : Host}
    (hends : p.Concludes range protocol address
      ((ofConfig p.probe generator config).check protocol address port) (some ()) h h') :
    p.Concludes range protocol address (p.isAvailable port protocol address) true h h' := by
  obtain ⟨l, l', hleaves, hasked, hlast, hstate⟩ := hends
  exact ⟨l, l', hleaves, hasked, check_apply p generator config hlast, hstate⟩

/-- A port that was picked lies in the range, and the last check was on it and found it free. -/
theorem randomPort_concludes {membership : Bool}
    (hrun : (ofConfig p.probe generator config).randomPort fuel protocol address membership w =
      (.ok port, w')) :
    (config.rangeFor membership).contains port = true ∧
      p.Concludes (config.rangeFor membership) protocol address
        (p.isAvailable port protocol address) true w.host w'.host := by
  obtain ⟨found, w₁, hfound, hrest⟩ := chain_ok hrun
  cases hrest
  have hsearch := search_of_searchWithinLimit _ _ _ hfound
  obtain ⟨hport, hends⟩ := search_concludes p generator fuel (fun _ _ => [])
    (fun port attempts w => w.note (.candidateInUse port attempts)) (fun _ => rfl)
    (check_leavesOpen p generator config protocol address)
    (check_asksOnly p generator config · protocol address) (fun _ _ _ => rfl)
    hsearch
  exact ⟨hport, concludes_check p generator config hends⟩

/-- A port that was claimed lies in the range, and the last claim was on it. -/
theorem randomKeeper_concludes {membership : Bool} {keeper : Keeper}
    (hrun : (ofConfig p.probe generator config).randomKeeper fuel protocol address membership w =
      (.ok keeper, w')) :
    (config.rangeFor membership).contains keeper.port = true ∧
      p.Concludes (config.rangeFor membership) protocol address
        (p.keep keeper.port protocol address) (some keeper) w.host w'.host := by
  obtain ⟨found, w₁, hfound, hrest⟩ := chain_ok hrun
  cases hrest
  have hgives := searchWithinLimit_answers (ofConfig p.probe generator config) fuel membership
    (fun _ _ w => w) (fun port => p.Gives ((address.getD .wildcard).endpoint port))
    (fun port => p.keep_answers port protocol address) _ _ _ hfound
  have hport : found.value.port = found.port := hgives.port
  have hsearch := search_of_searchWithinLimit _ _ _ hfound
  have hends := search_concludes p generator fuel
    (fun port => keptAt ((address.getD .wildcard).endpoint port)) (fun _ _ w => w) (fun _ => rfl)
    (fun port => p.keep_leavesOpen port protocol address)
    (p.keep_asksOnly · · protocol address) (fun _ _ _ => rfl) hsearch
  rwa [← hport] at hends

/-- A port that was picked from a given range lies in it, and the last check was on it and found it
free. -/
theorem randomPortInRange_concludes {lower upper : UInt16}
    (hrun : (ofConfig p.probe generator config).randomPortInRange fuel lower upper protocol address
      w = (.ok (some port), w')) :
    PortRange.contains ⟨lower, upper⟩ port = true ∧
      p.Concludes ⟨lower, upper⟩ protocol address (p.isAvailable port protocol address) true w.host
        w'.host := by
  simp only [randomPortInRange] at hrun
  cases hfault : PortRange.fault? ⟨lower, upper⟩ with
  | some fault =>
    rw [hfault] at hrun
    cases hrun
  | none =>
    rw [hfault] at hrun
    obtain ⟨found, w₁, hsearch, hrest⟩ := chain_ok hrun
    cases found with
    | none => cases hrest
    | some found =>
      cases hrest
      obtain ⟨hport, hends⟩ := search_concludes p generator fuel (fun _ _ => [])
        (fun _ _ w => w) (fun _ => rfl) (check_leavesOpen p generator config protocol address)
        (check_asksOnly p generator config · protocol address) (fun _ _ _ => rfl)
        hsearch
      exact ⟨hport, concludes_check p generator config hends⟩

end

end Allocator

end PortWarden
