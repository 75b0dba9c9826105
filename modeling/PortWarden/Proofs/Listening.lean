import PortWarden.Proofs.Settlement

/-!
# Opening a listener

A listener is opened on a new socket by three calls. If all of them pass, the socket listens on an
endpoint for which nobody contended, and if one fails, the socket is closed again. On a steady host
the error is known before the calls are made.
-/

namespace PortWarden

namespace Host

variable {h h' : Host} {id : SocketId}

/-- A call that passes has been counted, had its effect and is on record. -/
theorem perform_ok {operation : Operation} {site : Option CallSite} {call : Call}
    {effect : Host → Host} (hrun : perform operation site call effect h = (.ok (), h')) :
    h' = (effect (h.strike operation site).2).record call := by
  simp only [perform] at hrun
  rcases hstrike : h.strike operation site with ⟨_ | errno, m⟩ <;> rw [hstrike] at hrun
  · exact (Prod.mk.inj hrun).2.symm
  · cases (Prod.mk.inj hrun).1

/-- A socket that is bound was allowed to be. -/
theorem bind_ok {kind : SocketKind} {target : Endpoint}
    (hrun : bind id kind target h = (.ok (), h')) :
    h' = ((h.strike .bind (some target.site)).2.update id
        fun s => { s with bound := some target }).record ⟨some id, .bind target, none⟩ ∧
      h.bindFault? kind target = none := by
  simp only [bind] at hrun
  have hrule : (h.strike .bind (some target.site)).2.bindFault? kind target =
      h.bindFault? kind target := rfl
  rcases hstrike : h.strike .bind (some target.site) with ⟨fault, m⟩
  rw [hstrike] at hrun hrule
  dsimp only at hrun hrule
  cases hfault : fault.or (m.bindFault? kind target) with
  | none =>
    rw [hfault] at hrun
    rw [Option.or_eq_none_iff] at hfault
    exact ⟨(Prod.mk.inj hrun).2.symm, hrule ▸ hfault.2⟩
  | some errno =>
    rw [hfault] at hrun
    cases (Prod.mk.inj hrun).1

/-- A change of the youngest socket leaves the others alone. -/
theorem sockets_update_head {s : Socket} {rest : List Socket} (hsockets : h.sockets = s :: rest)
    (hid : s.id = id) (hrest : ∀ t ∈ rest, t.id ≠ id) (change : Socket → Socket) :
    (h.update id change).sockets = change s :: rest := by
  have hkeep : rest.map (fun t => if t.id = id then change t else t) = rest := by
    conv_rhs => rw [← List.map_id rest]
    exact List.map_congr_left fun t ht => if_neg (hrest t ht)
  simp only [update, hsockets, List.map_cons, if_pos hid, hkeep]

end Host

/-- The calls that make a new socket listen. -/
def listenOn (id : SocketId) (target : Endpoint) : SystemCall Unit := do
  Host.reuseAddress id
  Host.bind id .stream target
  Host.listen id listenBacklog

/-- Making a socket listen touches no other. -/
theorem worksOn_listenOn (id : SocketId) (target : Endpoint) :
    Host.WorksOn id (listenOn id target) :=
  (Host.worksOn_reuseAddress id).chain fun _ =>
    (Host.worksOn_bind id .stream target).chain fun _ => Host.worksOn_listen id listenBacklog

/-- A socket on which the calls pass listens, and nobody contended for its endpoint. -/
theorem listenOn_ok {h h' : Host} {id : SocketId} {target : Endpoint} {rest : List Socket}
    (hnew : h.sockets = { id, family := target.family, kind := .stream } :: rest)
    (hrest : ∀ t ∈ rest, t.id ≠ id) (hrun : listenOn id target h = (.ok (), h')) :
    h'.sockets = Socket.listener id target :: rest ∧ h.isContended target = false := by
  obtain ⟨_, h₁, hreuse, hrun⟩ := chain_ok hrun
  obtain ⟨_, h₂, hbind, hrun⟩ := chain_ok hrun
  have h₁_eq := Host.perform_ok hreuse
  obtain ⟨h₂_eq, hrule⟩ := Host.bind_ok hbind
  have h'_eq := Host.perform_ok hrun
  have h₁_sockets : h₁.sockets = { id, family := target.family, kind := .stream } :: rest := by
    rw [h₁_eq]
    exact hnew
  have h₂_sockets : h₂.sockets =
      { id, family := target.family, kind := .stream, bound := some target } :: rest := by
    rw [h₂_eq]
    exact Host.sockets_update_head h₁_sockets rfl hrest _
  refine ⟨?_, ?_⟩
  · rw [h'_eq]
    exact Host.sockets_update_head h₂_sockets rfl hrest _
  · have hcontended := (Host.bindFault?_stream_eq_none_iff.mp hrule).2
    rwa [h₁_eq] at hcontended

/-- Opening a listener creates a socket and makes it listen, or closes it again. -/
theorem openListener_apply (target : Endpoint) (h : Host) :
    openListener target h =
      match Host.create target.family .stream h with
      | (.error errno, m) => (.error errno, m)
      | (.ok id, m) =>
        match listenOn id target m with
        | (.ok (), m) => (.ok id, m)
        | (.error errno, m) => (.error errno, m.close id) := by
  have hchain : openListener target = Host.create target.family .stream >>= fun id =>
      Host.closingOnError id (listenOn id target) >>= fun _ => pure id := rfl
  simp only [hchain, chain_apply, Host.closingOnError, pure_apply]
  rcases Host.create target.family .stream h with ⟨_ | id, m⟩
  · rfl
  · dsimp only
    rcases listenOn id target m with ⟨_ | _, _⟩ <;> rfl

/-- Opening a listener leaves the listener, or nothing if it fails. -/
theorem openListener_leaves {h : Host} (hb : h.Balanced) (target : Endpoint) :
    h.Leaves (openListener target h).2
      (match (openListener target h).1 with
        | .ok id => [Socket.listener id target]
        | .error _ => []) := by
  have hstrike := Host.leaves_strike hb .create none
  rw [openListener_apply, Host.create_apply]
  rcases hcreate : h.strike .create none with ⟨_ | errno, m⟩ <;> rw [hcreate] at hstrike
  · have hwork := worksOn_listenOn (m.created + 1) target (m.withSocket target.family .stream)
    have hrest : ∀ t ∈ m.sockets, t.id ≠ m.created + 1 := fun t ht =>
      Nat.ne_of_lt (Nat.lt_succ_of_le (hstrike.balanced.id_le_created ht))
    dsimp only
    rcases hrun : listenOn (m.created + 1) target (m.withSocket target.family .stream) with
      ⟨errno | _, h'⟩ <;> rw [hrun] at hwork
    · exact hstrike.trans (Host.leaves_nothing hstrike.balanced hwork)
    · obtain ⟨hsockets, hfree⟩ := listenOn_ok rfl hrest hrun
      exact hstrike.trans (Host.leaves_listener hstrike.balanced hwork hsockets hfree)
  · exact hstrike.trans (Host.leaves_record hstrike.balanced rfl rfl)

/-- On a steady host a call passes if the faults give it no error. -/
theorem Host.perform_of_steady {h : Host} (hs : h.Steady) (operation : Operation)
    (site : Option CallSite) (call : Call) (effect : Host → Host) :
    Host.perform operation site call effect h =
      match h.faultFor? operation site with
      | some errno => (.error errno, h.record { call with failure := some errno })
      | none => (.ok (), (effect h).record call) := by
  cases hfault : h.faultFor? operation site <;>
    simp only [Host.perform, Host.strike_of_steady hs, hfault]

/-- On a steady host a socket is bound if neither the faults nor the rule for binding object. -/
theorem Host.bind_of_steady {h : Host} (hs : h.Steady) (id : SocketId) (kind : SocketKind)
    (target : Endpoint) :
    Host.bind id kind target h =
      match (h.faultFor? .bind (some target.site)).or (h.bindFault? kind target) with
      | some errno => (.error errno, h.record ⟨some id, .bind target, some errno⟩)
      | none => (.ok (), (h.update id fun s => { s with bound := some target }).record
          ⟨some id, .bind target, none⟩) := by
  cases hfault : (h.faultFor? .bind (some target.site)).or (h.bindFault? kind target) <;>
    simp only [Host.bind, Host.strike_of_steady hs, hfault]

/-- On a steady host a bound socket listens if the faults give it no error. -/
theorem Host.listen_of_steady {h : Host} (hs : h.Steady) {id : SocketId} {target : Endpoint}
    (hbound : h.bound? id = some target) (backlog : Nat) :
    Host.listen id backlog h =
      match h.faultFor? .listen (some target.site) with
      | some errno => (.error errno, h.record ⟨some id, .listen backlog, some errno⟩)
      | none => (.ok (), (h.update id fun s => { s with listening := true }).record
          ⟨some id, .listen backlog, none⟩) := by
  simp only [Host.listen, hbound, Option.map_some, Host.perform_of_steady hs]

/-- The error with which a new socket cannot be made to listen on a steady host: the first that the
faults give one of the calls, or that the rule for binding gives. -/
def Host.listenOnFault? (h : Host) (target : Endpoint) : Option Errno :=
  (h.faultFor? .reuseAddress none).or <|
    ((h.faultFor? .bind (some target.site)).or (h.bindFault? .stream target)).or
      (h.faultFor? .listen (some target.site))

/-- On a steady host the first error decides whether a new socket can be made to listen. -/
theorem listenOn_of_steady {h : Host} (hs : h.Steady) (id : SocketId) (target : Endpoint)
    {rest : List Socket}
    (hnew : h.sockets = { id, family := target.family, kind := .stream } :: rest) :
    (listenOn id target h).1 =
      match h.listenOnFault? target with
      | some errno => .error errno
      | none => .ok () := by
  simp only [Host.listenOnFault?, listenOn, chain_apply, Host.reuseAddress,
    Host.perform_of_steady hs]
  cases h.faultFor? .reuseAddress none with
  | some errno => rfl
  | none =>
    let h₁ := h.record ⟨some id, .reuseAddress, none⟩
    have hrule : h₁.bindFault? .stream target = h.bindFault? .stream target := rfl
    have hfault : h₁.faultFor? .bind (some target.site) = h.faultFor? .bind (some target.site) :=
      rfl
    dsimp only
    rw [Host.bind_of_steady (h := h₁) hs, hrule, hfault, Option.none_or]
    cases (h.faultFor? .bind (some target.site)).or (h.bindFault? .stream target) with
    | some errno => rfl
    | none =>
      let h₂ := (h₁.update id fun s => { s with bound := some target }).record
        ⟨some id, .bind target, none⟩
      have hbound : h₂.bound? id = some target := by
        simp [h₂, h₁, Host.bound?, Host.socket?, Host.update, Host.record, hnew]
      have hfault : h₂.faultFor? .listen (some target.site) =
          h.faultFor? .listen (some target.site) := rfl
      change (Host.listen id listenBacklog h₂).1 = _
      rw [Host.listen_of_steady (h := h₂) hs hbound, hfault, Option.none_or]
      cases h.faultFor? .listen (some target.site) <;> rfl

/-- The error with which no listener can be opened on a steady host. -/
def Host.listenFault? (h : Host) (target : Endpoint) : Option Errno :=
  (h.faultFor? .create none).or (h.listenOnFault? target)

/-- Without faults the rule for binding alone decides whether a listener can be opened. -/
theorem Host.listenFault?_of_no_faults {h : Host} (hfaults : h.faults = []) (target : Endpoint) :
    h.listenFault? target = h.bindFault? .stream target := by
  simp [listenFault?, listenOnFault?, faultFor?_of_no_faults hfaults]

/-- On a steady host it is known beforehand whether a listener can be opened. -/
theorem openListener_of_steady {h : Host} (hs : h.Steady) (target : Endpoint) :
    (openListener target h).1 =
      match h.listenFault? target with
      | some errno => .error errno
      | none => .ok (h.created + 1) := by
  rw [openListener_apply, Host.create_apply, Host.strike_of_steady hs, Host.listenFault?]
  cases h.faultFor? .create none with
  | some errno => rfl
  | none =>
    have hlisten := listenOn_of_steady (h := h.withSocket target.family .stream) hs
      (h.created + 1) target rfl
    have hfault : (h.withSocket target.family .stream).listenOnFault? target =
        h.listenOnFault? target := rfl
    rw [hfault] at hlisten
    dsimp only
    rw [Option.none_or]
    rcases hrun : listenOn (h.created + 1) target (h.withSocket target.family .stream) with
      ⟨result, m⟩
    rw [hrun] at hlisten
    obtain rfl := hlisten
    cases h.listenOnFault? target <;> rfl

end PortWarden
