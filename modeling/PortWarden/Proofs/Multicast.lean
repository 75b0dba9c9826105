import PortWarden.Proofs.Stream

/-!
# Questions about multicast ports

The socket through which a group is asked is worked on alone and closed at the end, wherever the
question ends.
-/

namespace PortWarden

namespace Prober

variable (p : Prober)

/-- Joining a group touches no other socket. -/
theorem worksOn_joinGroup (id : SocketId) (group : Address) :
    Host.WorksOn id (p.joinGroup id group) := by
  cases group with
  | v4 group =>
    refine (Host.worksOn_bind id .datagram _).chain fun _ => ?_
    dsimp only
    split
    · exact Host.worksOn_joinOnInterface id group _
    · exact (Host.worksOn_setMulticastInterface id _).chain fun _ =>
        Host.worksOn_joinOnInterface id group _
  | v6 group =>
    exact (Host.worksOn_bind id .datagram _).chain fun _ => Host.worksOn_joinOnIndex id group 0

/-- Sending the message touches no other socket. -/
theorem worksOn_sendPing (id : SocketId) (target : Endpoint) :
    Host.WorksOn id (p.sendPing id target) :=
  (Host.worksOn_reuseAddress id).chain fun _ =>
    (Host.worksOn_setTimeout id p.options.timeout.toNat).chain fun _ =>
      (p.worksOn_joinGroup id target.address).chain fun _ =>
        Host.worksOn_send id pingMessage target

/-- Waiting for an answer touches no other socket. -/
theorem awaitAnswer_tends (id : SocketId) (target : Endpoint) (w : Logged Host) :
    w.state.Tends id (awaitAnswer id target w).2.state := by
  have htends := Host.worksOn_receive id w.state
  simp only [awaitAnswer]
  rcases hrun : Host.receive id w.state with ⟨errno | sender, m⟩ <;> rw [hrun] at htends
  · dsimp only
    split <;> exact htends
  · exact htends

/-- Asking in a group leaves nothing open. -/
theorem pingGroup_leaves (target : Endpoint) {w : Logged Host} (hb : w.state.Balanced) :
    w.state.Leaves (p.pingGroup target w).2.state [] := by
  have hstrike := Host.leaves_strike hb .create none
  simp only [pingGroup, Host.create_apply]
  rcases hcreate : w.state.strike .create none with ⟨_ | errno, m⟩ <;> rw [hcreate] at hstrike
  · have hwork := p.worksOn_sendPing (m.created + 1) target (m.withSocket target.family .datagram)
    dsimp only
    rcases hrun : p.sendPing (m.created + 1) target (m.withSocket target.family .datagram) with
      ⟨errno | _, m'⟩ <;> rw [hrun] at hwork
    · exact hstrike.trans (Host.leaves_nothing hstrike.balanced hwork)
    · have hawait := awaitAnswer_tends (m.created + 1) target ⟨m', w.log⟩
      exact hstrike.trans (Host.leaves_nothing hstrike.balanced (hwork.trans hawait))
  · exact hstrike.trans (Host.leaves_record hstrike.balanced rfl rfl)

/-- Checking a multicast port leaves nothing open. -/
theorem isFreeInGroup_leavesOpen (port : UInt16) (address : Option Address) :
    LeavesOpen Logged.state (fun _ => []) (p.isFreeInGroup port address) := by
  intro w hb
  have hping := p.pingGroup_leaves ((address.getD p.options.group).endpoint port) hb
  rw [leftBy_nothing]
  simp only [isFreeInGroup]
  split
  · rcases hrun : p.pingGroup ((address.getD p.options.group).endpoint port) w with
      ⟨errno | occupied, w'⟩ <;> rw [hrun] at hping
    · dsimp only
      split <;> exact hping
    · exact hping
  · exact .refl hb

/-- Checking a multicast port in a group fails only because of the host. -/
theorem isFreeInGroup_fails (port : UInt16) {address : Option Address}
    (hgroup : (address.getD p.options.group).isMulticast = true) :
    Fails (p.isFreeInGroup port address) (·.isHostFailure = true) := by
  intro w failure w' hrun
  simp only [isFreeInGroup, if_pos hgroup] at hrun
  rcases hping : p.pingGroup ((address.getD p.options.group).endpoint port) w with
    ⟨errno | occupied, m⟩ <;> rw [hping] at hrun
  · dsimp only at hrun
    split at hrun <;> cases hrun
    rfl
  · cases hrun

/-- Checking a port leaves nothing open, whatever the protocol. -/
theorem isAvailable_leavesOpen (port : UInt16) (protocol : Protocol) (address : Option Address) :
    LeavesOpen Logged.state (fun _ => []) (p.isAvailable port protocol address) := by
  cases protocol with
  | stream => exact released_leavesOpen (p.claimStream_leavesOpen port address)
  | multicast => exact p.isFreeInGroup_leavesOpen port address

/-- Checking a port fails only because of the host, if what is asked for a multicast port is a
group. -/
theorem isAvailable_fails (port : UInt16) {protocol : Protocol} {address : Option Address}
    (hgroup : protocol = .multicast → (address.getD p.options.group).isMulticast = true) :
    Fails (p.isAvailable port protocol address) (·.isHostFailure = true) := by
  cases protocol with
  | stream => exact released_fails (p.claimStream_fails port address)
  | multicast => exact p.isFreeInGroup_fails port (hgroup rfl)

/-- Claiming a port leaves what its keeper holds, on the address asked for or else on the
wildcard. -/
theorem keep_leavesOpen (port : UInt16) (protocol : Protocol) (address : Option Address) :
    LeavesOpen Logged.state (keptAt ((address.getD .wildcard).endpoint port))
      (p.keep port protocol address) := by
  cases protocol with
  | stream => exact p.claimStream_leavesOpen port address
  | multicast => exact .throw _

/-- The keeper that is given for a port is for the address asked for or else for the wildcard. -/
theorem keep_answers (port : UInt16) (protocol : Protocol) (address : Option Address) :
    Answers (p.keep port protocol address)
      fun kept => ∀ keeper ∈ kept, p.Gives ((address.getD .wildcard).endpoint port) keeper := by
  cases protocol with
  | stream => exact p.claimStream_answers port address
  | multicast =>
    intro w kept w' hrun
    cases hrun

end Prober

end PortWarden
