import Libpict.IpSockets
import Libpict.Scripted

/-! # Safety of the sockets

As long as a connection is made before it is used and closed once, no call names a descriptor
that is not an open socket, except where `getsockopt` fails, and closing leaves none open.
-/

namespace Libpict

open CInt Exec Transitions

variable {τ : Type} {N : Network τ} {w w' : World (IpHost τ)} {fd : Int}

/-! ## A new socket -/

/-- The calls between two worlds use open sockets, and close such, if `getsockopt` does not
fail. -/
def Names (w w' : World (IpHost τ)) : Prop := ∃ made,
  w'.device.calls = w.device.calls ++ made ∧ usesWatch.Obeyed w.device.table made ∧
    ((∀ fd, SocketCall.error fd false ∉ made) → socketWatch.Obeyed w.device.table made)

theorem Names.of_obeyed {made : List SocketCall} (hcalls : w'.device.calls = w.device.calls ++ made)
    (hobeyed : socketWatch.Obeyed w.device.table made) : Names w w' :=
  ⟨made, hcalls, hobeyed.mono rfl fun _ _ h => h.uses, fun _ => hobeyed⟩

theorem names_of_calls (hcalls : w'.device.calls = w.device.calls) : Names w w' :=
  .of_obeyed (hcalls.trans (List.append_nil _).symm) trivial

instance : IsPreorder (World (IpHost τ)) Names where
  refl _ := names_of_calls rfl
  trans u v w := by
    rintro ⟨first, hfirst, huses, hobeyed⟩ ⟨second, hsecond, huses', hobeyed'⟩
    have htable : v.device.table = socketWatch.after u.device.table first := by
      rw [IpHost.table, hfirst, socketWatch.after_append]
      rfl
    refine ⟨first ++ second, by rw [hsecond, hfirst, List.append_assoc], ?_, fun hnone => ?_⟩
    · rw [usesWatch.obeyed_append]
      rw [htable] at huses'
      exact ⟨huses, huses'⟩
    rw [socketWatch.obeyed_append, ← htable]
    exact ⟨hobeyed fun fd hmem => hnone fd (List.mem_append_left _ hmem),
      hobeyed' fun fd hmem => hnone fd (List.mem_append_right _ hmem)⟩

/-- Of an open socket, either it is returned or it is closed and -1 is returned. -/
structure Settled (fd : Int) (w : World (IpHost τ)) (rc : Int) (w' : World (IpHost τ)) : Prop where
  runtime : w'.r = w.r
  backend : w'.device.backend = w.device.backend
  table : rc = -1 ∧ w'.device.table = Function.update w.device.table fd false ∨
    rc = fd ∧ w'.device.table = w.device.table
  names : Names w w'

def Settles (fd : Int) (x : M (IpHost τ) Int) (w : World (IpHost τ)) : Prop :=
  ∃ rc w', x w = .ok rc w' ∧ Settled fd w rc w'

theorem settles_giveUp (hopen : w.device.table fd = true) :
    Settles fd (Network.giveUp fd) w :=
  ⟨-1, _, rfl, rfl, rfl, .inl ⟨rfl, IpHost.called_table w.device (.close fd) w.device.net⟩,
    .of_obeyed rfl ⟨hopen, trivial⟩⟩

/-- A call that names the socket changes nothing about it. -/
theorem settles_ask {α : Type} {g : IpHost τ → α × IpHost τ} {f : α → M (IpHost τ) Int} {a : α}
    {call : SocketCall} {net : τ} (hcall : call = .names fd ∨ call = .error fd true)
    (hg : g w.device = (a, w.device.called call net)) (hopen : w.device.table fd = true)
    (hrest : ∀ v : World (IpHost τ), v.device.table fd = true → Settles fd (f a) v) :
    Settles fd (Network.ask g >>= f) w := by
  let v : World (IpHost τ) := { w with device := w.device.called call net }
  have hask : Network.ask g w = .ok a v := by rw [Network.ask_run, hg]
  have htable : v.device.table = w.device.table := by
    rw [IpHost.called_table]
    rcases hcall with rfl | rfl <;> rfl
  have hallows : w.device.table.Allows call := by
    rcases hcall with rfl | rfl <;> exact hopen
  obtain ⟨rc, w', hrun, hruntime, hbackend, hsettled, hnames⟩ := hrest v (htable ▸ hopen)
  rw [htable] at hsettled
  have hfirst : Names w v := .of_obeyed rfl ⟨hallows, trivial⟩
  exact ⟨rc, w', (bind_ok hask).trans hrun, hruntime, hbackend, hsettled,
    trans_of Names hfirst hnames⟩

theorem settles_getSockError {f : Int → M (IpHost τ) Int} (hopen : w.device.table fd = true)
    (hfailed : f (-1) = Network.giveUp fd)
    (hrest : ∀ error (v : World (IpHost τ)), v.device.table fd = true → Settles fd (f error) v) :
    Settles fd (N.getSockError fd >>= f) w := by
  unfold Network.getSockError
  rw [bind_assoc]
  cases herror : (N.sockError fd w.device.net).1 with
  | some error =>
      have hpure : ∀ v : World (IpHost τ), v.device.table fd = true →
          Settles fd ((pure error : M (IpHost τ) Int) >>= f) v := by
        intro v hv
        rw [pure_bind]
        exact hrest error v hv
      have hanswer : ((N.sockError fd w.device.net).1,
          w.device.called (.error fd (N.sockError fd w.device.net).1.isSome)
            (N.sockError fd w.device.net).2) =
          (some error, w.device.called (.error fd true) (N.sockError fd w.device.net).2) := by
        rw [herror]
        rfl
      exact settles_ask (.inr rfl) hanswer hopen hpure
  | none =>
      -- the socket is closed here, and once more behind
      let host := w.device.called (.error fd false) (N.sockError fd w.device.net).2
      let closed := host.called (.close fd) host.net
      let twice := closed.called (.close fd) closed.net
      have hask : Network.ask (fun host : IpHost τ => ((N.sockError fd host.net).1,
          host.called (.error fd (N.sockError fd host.net).1.isSome) (N.sockError fd host.net).2)) w =
          .ok none { w with device := host } := by
        rw [Network.ask_run, herror]
        rfl
      have hclose : Network.close fd { w with device := host } = .ok () { w with device := closed } :=
        rfl
      refine ⟨-1, { w with device := twice }, ?_, rfl, rfl, .inl ⟨rfl, ?_⟩,
        [.error fd false, .close fd, .close fd], ?_, ⟨hopen, trivial, trivial, trivial⟩,
        fun hnone => absurd List.mem_cons_self (hnone fd)⟩
      · rw [bind_ok hask]
        dsimp only
        rw [bind_assoc, bind_ok hclose, pure_bind, hfailed]
        rfl
      · simp only [twice, closed, host, IpHost.called_table]
        exact Function.update_idem _ _ _
      · simp [twice, closed, host]

/-- A new socket is open if it is returned. Otherwise none is left open. -/
theorem newTimeoutSocket_spec (N : Network τ) (addr : List UInt8) (port : Int)
    (w : World (IpHost τ)) : ∃ rc w', N.ptpipNewTimeoutSocket addr port w = .ok rc w' ∧
      w'.r = w.r ∧ w'.device.backend = w.device.backend ∧ Names w w' ∧
      (rc = -1 ∧ w'.device.table = w.device.table ∨
        0 < rc ∧ w.device.table rc = false ∧
          w'.device.table = Function.update w.device.table rc true) := by
  cases hsocket : N.socket w.device.table w.device.net with
  | mk socket net =>
      cases socket with
      | none =>
          have hopen : N.openSocket w.device = (none, { w.device with net := net }) := by
            rw [Network.openSocket, hsocket]
          have hask : Network.ask N.openSocket w = .ok none { w with
              device := { w.device with net := net } } := by rw [Network.ask_run, hopen]
          exact ⟨-1, _, bind_ok hask, rfl, rfl, names_of_calls rfl, .inl ⟨rfl, rfl⟩⟩
      | some fd =>
          obtain ⟨fd, hpos, hclosed⟩ := fd
          have hopen : N.openSocket w.device = (some fd, w.device.called (.opened fd) net) := by
            rw [Network.openSocket, hsocket]
          let v : World (IpHost τ) := { w with device := w.device.called (.opened fd) net }
          have hask : Network.ask N.openSocket w = .ok (some fd) v := by rw [Network.ask_run, hopen]
          have htable : v.device.table = Function.update w.device.table fd true :=
            IpHost.called_table w.device (.opened fd) net
          have hsettles : Settles fd (do
              let ok ← N.setNonblockingIo fd true
              if ok = false then Network.giveUp fd
              else if N.isAddress addr = false then Network.giveUp fd
              else do
                let ok ← Network.ask fun host =>
                  ((N.connect fd addr port host.net).1,
                    host.called (.names fd) (N.connect fd addr port host.net).2)
                if ok = false then Network.giveUp fd
                else do
                  let ready ← Network.ask fun host =>
                    ((N.select fd host.net).1,
                      host.called (.names fd) (N.select fd host.net).2)
                  if ready = false then Network.giveUp fd
                  else do
                    let error ← N.getSockError fd
                    if error ≠ 0 then Network.giveUp fd
                    else do
                      let _ ← N.setNonblockingIo fd false
                      pure fd) v := by
            refine settles_ask (.inl rfl) rfl (htable ▸ Function.update_self ..) fun v₁ h₁ => ?_
            split
            · exact settles_giveUp h₁
            split
            · exact settles_giveUp h₁
            refine settles_ask (.inl rfl) rfl h₁ fun v₂ h₂ => ?_
            split
            · exact settles_giveUp h₂
            refine settles_ask (.inl rfl) rfl h₂ fun v₃ h₃ => ?_
            split
            · exact settles_giveUp h₃
            refine settles_getSockError h₃ (if_pos (by decide)) fun error v₄ h₄ => ?_
            split
            · exact settles_giveUp h₄
            refine settles_ask (.inl rfl) rfl h₄ fun v₅ h₅ => ?_
            exact ⟨fd, v₅, rfl, rfl, rfl, .inr ⟨rfl, rfl⟩, refl_of Names v₅⟩
          obtain ⟨rc, w', hrun, hruntime, hbackend, hsettled, hnames⟩ := hsettles
          have hfirst : Names w v := .of_obeyed rfl ⟨trivial, trivial⟩
          refine ⟨rc, w', (bind_ok hask).trans hrun, hruntime, hbackend,
            trans_of Names hfirst hnames, ?_⟩
          rw [htable] at hsettled
          rcases hsettled with ⟨rfl, hsettled⟩ | ⟨rfl, hsettled⟩
          · refine .inl ⟨rfl, ?_⟩
            rw [hsettled, Function.update_idem, ← hclosed, Function.update_eq_self]
          · exact .inr ⟨hpos, hclosed, hsettled⟩

/-! ## Connections -/

/-- How far a connection has come. -/
inductive IpStage
  | down
  /-- The commands have a socket. -/
  | up
  /-- The events have one, too. -/
  | both
  | closed
  deriving DecidableEq

/-- Connect when there is no connection, use what is connected, close once, and reset before
the next connection. -/
def IpStage.Allows : IpStage → IpRequest × Int → Prop
  | down, (.connectEvents .., _) => False
  | up, (.connect .., _) | up, (.reset, _) => False
  | up, (.initEvents, _) | up, (.eventSend _, _) | up, (.eventRead _, _) => False
  | both, (.connect .., _) | both, (.connectEvents .., _) | both, (.reset, _) => False
  | closed, (request, _) => request = .reset
  | _, _ => True

/-- What a request with its result makes of the connection. -/
def IpStage.next : IpStage → IpRequest × Int → IpStage
  | down, (.connect .., rc) => if rc = 0 then up else down
  | up, (.connectEvents .., rc) => if rc = 0 then both else up
  | up, (.close, _) | both, (.close, _) => closed
  | closed, (.reset, _) => down
  | stage, _ => stage

/-- The watch over the requests. -/
def ipProtocol : Watch IpStage (IpRequest × Int) := ⟨IpStage.next, IpStage.Allows⟩

/-- The request uses the socket of the events. -/
def IpRequest.OnEvents : IpRequest → Prop
  | initEvents | eventSend _ | eventRead _ => True
  | _ => False

section Allows

variable {stage : IpStage} {request : IpRequest} {rc : Int}

theorem IpStage.Allows.open (hallows : stage.Allows (request, rc)) (hreset : request ≠ .reset) :
    stage ≠ .closed := by
  rintro rfl
  exact hreset hallows

theorem IpStage.Allows.events (hallows : stage.Allows (request, rc)) (hevents : request.OnEvents) :
    stage = .down ∨ stage = .both := by
  cases stage with
  | down => exact .inl rfl
  | both => exact .inr rfl
  | up => cases request <;> first | exact hallows.elim | exact hevents.elim
  | closed =>
      obtain rfl : request = .reset := hallows
      exact hevents.elim

end Allows

/-- The open sockets are those of the backend, as far as the connection has come. -/
def IpStage.Holds (w : World (IpHost τ)) : IpStage → Prop
  | down => w.r.ioKillSwitch = true ∧ w.device.backend.getD ⟨0, 0⟩ = ⟨0, 0⟩ ∧
      ∀ fd, w.device.table fd = false
  | up => ∃ fd, w.device.backend = some ⟨fd, 0⟩ ∧ 0 < fd ∧
      ∀ other, w.device.table other = decide (other = fd)
  | both => ∃ fd evfd, w.device.backend = some ⟨fd, evfd⟩ ∧ 0 < fd ∧ 0 < evfd ∧ fd ≠ evfd ∧
      ∀ other, w.device.table other = (decide (other = fd) || decide (other = evfd))
  | closed => ∀ fd, w.device.table fd = false

/-- A request that is made where it is allowed takes the connection where it should. -/
def IpStage.Follows (stage : IpStage) (w : World (IpHost τ)) (request : IpRequest) (rc : Int)
    (w' : World (IpHost τ)) : Prop :=
  Names w w' ∧ (stage.next (request, rc)).Holds w'

theorem IpStage.follows {stage stage' : IpStage} {request : IpRequest} {rc : Int}
    (hnames : Names w w') (hstage : stage.next (request, rc) = stage') (hholds : stage'.Holds w') :
    stage.Follows w request rc w' := by
  subst hstage
  exact ⟨hnames, hholds⟩

theorem initComm_run (w : World (IpHost τ)) :
    Network.initComm w = .ok (w.device.backend.getD ⟨0, 0⟩)
      { w with
        r := { w.r with maxPacketSize := 65535 }
        device := { w.device with backend := some (w.device.backend.getD ⟨0, 0⟩) } } := rfl

/-- The sockets are used, and stay as they are. -/
structure Uses (w w' : World (IpHost τ)) : Prop where
  names : Names w w'
  backend : w'.device.backend = w.device.backend
  table : w'.device.table = w.device.table
  ioKillSwitch : w'.r.ioKillSwitch = w.r.ioKillSwitch

instance : IsPreorder (World (IpHost τ)) Uses where
  refl w := ⟨refl_of Names w, rfl, rfl, rfl⟩
  trans _ _ _ h h' := ⟨trans_of Names h.1 h'.1, h'.2.trans h.2, h'.3.trans h.3, h'.4.trans h.4⟩

/-- The backend is there, with an open socket where `f` tells. -/
def OpenAt (f : PtpIpBackend → Int) (w : World (IpHost τ)) : Prop :=
  ∃ b, w.device.backend = some b ∧ w.device.table (f b) = true

theorem initComm_uses {b c : PtpIpBackend} (hbackend : w.device.backend = some b)
    (hrun : Network.initComm w = .ok c w') : c = b ∧ Uses w w' := by
  rw [initComm_run, hbackend] at hrun
  obtain ⟨rfl, rfl⟩ := EStateM.Result.ok.inj hrun
  exact ⟨rfl, names_of_calls rfl, hbackend.symm, rfl, rfl⟩

theorem transfer_uses {α : Type} {g : IpHost τ → α} {net : IpHost τ → τ} {a : α}
    (hopen : w.device.table fd = true)
    (hrun : Network.ask (fun host => (g host, host.called (.transfer fd) (net host))) w = .ok a w') :
    Uses w w' := by
  obtain ⟨_, rfl⟩ := EStateM.Result.ok.inj hrun
  exact ⟨.of_obeyed rfl ⟨hopen, trivial⟩, rfl,
    IpHost.called_table w.device (.transfer fd) _, rfl⟩

/-- A transfer on an open socket, or none. -/
theorem send_uses {f : PtpIpBackend → Int} {bytes : List UInt8} {rc : Int}
    (hopen : w.r.ioKillSwitch = false → OpenAt f w) (hrun : N.send f bytes w = .ok rc w') :
    Uses w w' := by
  obtain ⟨r, v, hr, hrest⟩ := bind_eq_ok.mp hrun
  obtain ⟨rfl, rfl⟩ := EStateM.Result.ok.inj hr
  split at hrest
  · obtain ⟨_, rfl⟩ := EStateM.Result.ok.inj hrest
    exact refl_of Uses w
  next hclear =>
    obtain ⟨b, hbackend, htable⟩ := hopen ((Bool.not_eq_true _).mp hclear)
    obtain ⟨c, u, hinit, hrest⟩ := bind_eq_ok.mp hrest
    obtain ⟨rfl, hfirst⟩ := initComm_uses hbackend hinit
    obtain ⟨sent, u', hask, hrest⟩ := bind_eq_ok.mp hrest
    have hsecond := transfer_uses (hfirst.table ▸ htable) hask
    have huses := trans_of Uses hfirst hsecond
    cases sent with
    | none =>
        obtain ⟨_, rfl⟩ := EStateM.Result.ok.inj hrest
        exact huses
    | some sent =>
        obtain ⟨_, rfl⟩ := EStateM.Result.ok.inj hrest
        exact huses

theorem storeData_uses {offset : Int} {bytes : List UInt8}
    (hrun : storeData offset bytes w = .ok () w') : Uses w w' := by
  unfold storeData PtpRuntime.store at hrun
  cases hdata : w.r.data with
  | none =>
      rw [hdata] at hrun
      cases hrun
  | some buffer =>
      rw [hdata] at hrun
      dsimp only at hrun
      split at hrun
      next hstored =>
        split at hstored
        · obtain rfl := Except.ok.inj hstored
          obtain ⟨_, rfl⟩ := EStateM.Result.ok.inj hrun
          exact ⟨names_of_calls rfl, rfl, rfl, rfl⟩
        · cases hstored
      next => cases hrun

theorem receive_uses {f : PtpIpBackend → Int} {size : Nat} {rc : Int}
    (hopen : w.r.ioKillSwitch = false → OpenAt f w) (hrun : N.receive f size w = .ok rc w') :
    Uses w w' := by
  obtain ⟨r, v, hr, hrest⟩ := bind_eq_ok.mp hrun
  obtain ⟨rfl, rfl⟩ := EStateM.Result.ok.inj hr
  split at hrest
  · obtain ⟨_, rfl⟩ := EStateM.Result.ok.inj hrest
    exact refl_of Uses w
  next hclear =>
    obtain ⟨b, hbackend, htable⟩ := hopen ((Bool.not_eq_true _).mp hclear)
    obtain ⟨c, u, hinit, hrest⟩ := bind_eq_ok.mp hrest
    obtain ⟨rfl, hfirst⟩ := initComm_uses hbackend hinit
    obtain ⟨got, u', hask, hrest⟩ := bind_eq_ok.mp hrest
    have hsecond := transfer_uses (hfirst.table ▸ htable) hask
    have huses := trans_of Uses hfirst hsecond
    cases got with
    | none =>
        obtain ⟨_, rfl⟩ := EStateM.Result.ok.inj hrest
        exact huses
    | some bytes =>
        obtain ⟨_, x, hstore, hrest⟩ := bind_eq_ok.mp hrest
        obtain ⟨_, rfl⟩ := EStateM.Result.ok.inj hrest
        exact trans_of Uses huses (storeData_uses hstore)

theorem initEvents_uses {rc : Int} (hopen : w.r.ioKillSwitch = false → OpenAt PtpIpBackend.evfd w)
    (hrun : N.ptpipInitEvents w = .ok rc w') : Uses w w' := by
  obtain ⟨sent, v, hsend, hrest⟩ := bind_eq_ok.mp hrun
  have hfirst := send_uses hopen hsend
  split at hrest
  · obtain ⟨_, rfl⟩ := EStateM.Result.ok.inj hrest
    exact hfirst
  · obtain ⟨got, u, hreceive, hrest⟩ := bind_eq_ok.mp hrest
    have hopen' : v.r.ioKillSwitch = false → OpenAt PtpIpBackend.evfd v := by
      unfold OpenAt
      rw [hfirst.ioKillSwitch, hfirst.backend, hfirst.table]
      exact hopen
    have hsecond := receive_uses hopen' hreceive
    split at hrest
    · obtain ⟨_, rfl⟩ := EStateM.Result.ok.inj hrest
      exact trans_of Uses hfirst hsecond
    · obtain ⟨_, rfl⟩ := EStateM.Result.ok.inj hrest
      exact trans_of Uses hfirst hsecond

/-- What uses the sockets leaves the connection as it is. -/
theorem Uses.holds {stage : IpStage} (huses : Uses w w') (hholds : stage.Holds w) :
    stage.Holds w' := by
  cases stage with
  | down =>
      obtain ⟨hio, hbackend, htable⟩ := hholds
      refine ⟨huses.ioKillSwitch.trans hio, ?_, ?_⟩
      · rw [huses.backend]
        exact hbackend
      · rw [huses.table]
        exact htable
  | up =>
      obtain ⟨fd, hbackend, hpos, htable⟩ := hholds
      refine ⟨fd, huses.backend.trans hbackend, hpos, ?_⟩
      rw [huses.table]
      exact htable
  | both =>
      obtain ⟨fd, evfd, hbackend, hpos, hpos', hne, htable⟩ := hholds
      refine ⟨fd, evfd, huses.backend.trans hbackend, hpos, hpos', hne, ?_⟩
      rw [huses.table]
      exact htable
  | closed =>
      change ∀ fd, w'.device.table fd = false
      rw [huses.table]
      exact hholds

/-- The commands have a socket while they are not refused. -/
theorem IpStage.Holds.command {stage : IpStage} (hholds : stage.Holds w) (hclosed : stage ≠ .closed)
    (hclear : w.r.ioKillSwitch = false) : OpenAt PtpIpBackend.fd w := by
  cases stage with
  | down => cases hclear.symm.trans hholds.1
  | up =>
      obtain ⟨fd, hbackend, _, htable⟩ := hholds
      exact ⟨_, hbackend, (htable fd).trans (decide_eq_true rfl)⟩
  | both =>
      obtain ⟨fd, evfd, hbackend, _, _, _, htable⟩ := hholds
      refine ⟨_, hbackend, (htable fd).trans ?_⟩
      simp
  | closed => exact absurd rfl hclosed

/-- So have the events, where they may be used. -/
theorem IpStage.Holds.events {stage : IpStage} (hholds : stage.Holds w)
    (hstage : stage = .down ∨ stage = .both) (hclear : w.r.ioKillSwitch = false) :
    OpenAt PtpIpBackend.evfd w := by
  rcases hstage with rfl | rfl
  · cases hclear.symm.trans hholds.1
  · obtain ⟨fd, evfd, hbackend, _, _, _, htable⟩ := hholds
    refine ⟨_, hbackend, (htable evfd).trans ?_⟩
    simp

/-! ## Requests -/

section Requests

variable {rc : Int} {addr : List UInt8} {port : Int}

theorem connect_follows (hholds : IpStage.down.Holds w)
    (hrun : N.ptpipConnect addr port w = .ok rc w') :
    IpStage.down.Follows w (.connect addr port) rc w' := by
  obtain ⟨hio, hbackend, htable⟩ := hholds
  obtain ⟨fd, v, hsocket, hr, hkept, hnames, hsettled⟩ := newTimeoutSocket_spec N addr port w
  obtain ⟨fd', v', hsocket', hrest⟩ := bind_eq_ok.mp hrun
  obtain ⟨rfl, rfl⟩ := EStateM.Result.ok.inj (hsocket.symm.trans hsocket')
  obtain ⟨b, u, hinit, hrest⟩ := bind_eq_ok.mp hrest
  rw [initComm_run, hkept, hbackend] at hinit
  obtain ⟨_, rfl⟩ := EStateM.Result.ok.inj hinit
  rcases hsettled with ⟨rfl, hclosed⟩ | ⟨hpos, hfresh, hopened⟩
  · rw [if_neg (by decide)] at hrest
    obtain ⟨rfl, rfl⟩ := EStateM.Result.ok.inj hrest
    have hstage : IpStage.down.next (.connect addr port, -1) = .down := by simp [IpStage.next]
    refine IpStage.follows hnames hstage ⟨?_, rfl, fun other => ?_⟩
    · exact (congrArg PtpRuntime.ioKillSwitch hr).trans hio
    · exact (congrFun hclosed other).trans (htable other)
  · rw [if_pos hpos] at hrest
    obtain ⟨rfl, rfl⟩ := EStateM.Result.ok.inj hrest
    have hstage : IpStage.down.next (.connect addr port, 0) = .up := by simp [IpStage.next]
    refine IpStage.follows hnames hstage ⟨fd, rfl, hpos, fun other => ?_⟩
    refine (congrFun hopened other).trans ?_
    rw [Function.update_apply, htable]
    by_cases hother : other = fd <;> simp [hother]

theorem connectEvents_follows (hholds : IpStage.up.Holds w)
    (hrun : N.ptpipConnectEvents addr port w = .ok rc w') :
    IpStage.up.Follows w (.connectEvents addr port) rc w' := by
  obtain ⟨cmd, hbackend, hcmd, htable⟩ := hholds
  obtain ⟨fd, v, hsocket, hr, hkept, hnames, hsettled⟩ := newTimeoutSocket_spec N addr port w
  obtain ⟨fd', v', hsocket', hrest⟩ := bind_eq_ok.mp hrun
  obtain ⟨rfl, rfl⟩ := EStateM.Result.ok.inj (hsocket.symm.trans hsocket')
  obtain ⟨b, u, hinit, hrest⟩ := bind_eq_ok.mp hrest
  rw [initComm_run, hkept, hbackend] at hinit
  obtain ⟨_, rfl⟩ := EStateM.Result.ok.inj hinit
  rcases hsettled with ⟨rfl, hclosed⟩ | ⟨hpos, hfresh, hopened⟩
  · rw [if_neg (by decide)] at hrest
    obtain ⟨rfl, rfl⟩ := EStateM.Result.ok.inj hrest
    have hstage : IpStage.up.next (.connectEvents addr port, -1) = .up := by simp [IpStage.next]
    exact IpStage.follows hnames hstage
      ⟨cmd, rfl, hcmd, fun other => (congrFun hclosed other).trans (htable other)⟩
  · rw [if_pos hpos] at hrest
    obtain ⟨rfl, rfl⟩ := EStateM.Result.ok.inj hrest
    have hne : cmd ≠ fd := by
      rintro rfl
      rw [htable, decide_eq_true rfl] at hfresh
      cases hfresh
    have hstage : IpStage.up.next (.connectEvents addr port, 0) = .both := by simp [IpStage.next]
    refine IpStage.follows hnames hstage
      ⟨cmd, fd, rfl, hcmd, hpos, hne, fun other => ?_⟩
    refine (congrFun hopened other).trans ?_
    rw [Function.update_apply, htable]
    by_cases hother : other = fd <;> simp [hother]

/-- Closing closes what is open, each socket once. -/
theorem close_follows {stage : IpStage} (hholds : stage.Holds w) (hclosed : stage ≠ .closed)
    (hrun : (Network.ptpipClose : M (IpHost τ) Int) w = .ok rc w') :
    stage.Follows w .close rc w' := by
  obtain ⟨b, u, hinit, hrest⟩ := bind_eq_ok.mp hrun
  cases stage with
  | closed => exact absurd rfl hclosed
  | down =>
      obtain ⟨hio, hbackend, htable⟩ := hholds
      rw [initComm_run, hbackend] at hinit
      obtain ⟨rfl, rfl⟩ := EStateM.Result.ok.inj hinit
      obtain ⟨_, rfl⟩ := EStateM.Result.ok.inj hrest
      exact ⟨names_of_calls rfl, hio, rfl, htable⟩
  | up =>
      obtain ⟨fd, hbackend, hpos, htable⟩ := hholds
      rw [initComm_run, hbackend] at hinit
      obtain ⟨rfl, rfl⟩ := EStateM.Result.ok.inj hinit
      have hfd : fd ≠ 0 := hpos.ne'
      simp only [Option.getD_some, ne_eq, hfd, not_false_eq_true, if_true, not_true_eq_false,
        if_false] at hrest
      obtain ⟨_, rfl⟩ := EStateM.Result.ok.inj hrest
      refine ⟨.of_obeyed rfl ⟨(htable fd).trans (decide_eq_true rfl), trivial⟩, ?_⟩
      intro other
      refine (congrFun (IpHost.called_table _ (.close fd) _) other).trans ?_
      change Function.update w.device.table fd false other = false
      rw [Function.update_apply, htable]
      by_cases hother : other = fd <;> simp [hother]
  | both =>
      obtain ⟨fd, evfd, hbackend, hpos, hpos', hne, htable⟩ := hholds
      rw [initComm_run, hbackend] at hinit
      obtain ⟨rfl, rfl⟩ := EStateM.Result.ok.inj hinit
      have hfd : fd ≠ 0 := hpos.ne'
      have hevfd : evfd ≠ 0 := hpos'.ne'
      simp only [Option.getD_some, ne_eq, hfd, hevfd, not_false_eq_true, if_true] at hrest
      obtain ⟨_, rfl⟩ := EStateM.Result.ok.inj hrest
      have hfirst : w.device.table fd = true := (htable fd).trans (by simp)
      have hsecond : Function.update w.device.table fd false evfd = true := by
        rw [Function.update_of_ne hne.symm, htable]
        simp
      refine ⟨.of_obeyed (List.append_assoc ..) ⟨hfirst, hsecond, trivial⟩, ?_⟩
      intro other
      refine (congrFun (IpHost.called_table _ (.close evfd) _) other).trans ?_
      refine (congrFun (congrArg (fun table => SocketTable.move table (.close evfd))
        (IpHost.called_table _ (.close fd) _)) other).trans ?_
      change Function.update (Function.update w.device.table fd false) evfd false other = false
      rw [Function.update_apply, Function.update_apply, htable]
      by_cases hother : other = evfd
      · rw [if_pos hother]
      · by_cases hother' : other = fd <;> simp [hother, hother']

/-- A request that only uses the sockets keeps the stage. -/
theorem follows_of_uses {stage : IpStage} {request : IpRequest} (hholds : stage.Holds w)
    (huses : Uses w w') (hstage : stage.next (request, rc) = stage) :
    stage.Follows w request rc w' :=
  IpStage.follows huses.names hstage (huses.holds hholds)

/-- Every request follows the protocol where it is allowed. -/
theorem IpRequest.follows {request : IpRequest} {stage : IpStage} (hholds : stage.Holds w)
    (hallows : stage.Allows (request, rc)) (hrun : request.exec N w = .ok rc w') :
    stage.Follows w request rc w' := by
  cases request with
  | reset =>
      obtain ⟨_, rfl⟩ := EStateM.Result.ok.inj hrun
      cases stage with
      | down => exact ⟨names_of_calls rfl, rfl, rfl, hholds.2.2⟩
      | up => exact hallows.elim
      | both => exact hallows.elim
      | closed => exact ⟨names_of_calls rfl, rfl, rfl, hholds⟩
  | connect addr port =>
      cases stage with
      | down => exact connect_follows hholds hrun
      | up => exact hallows.elim
      | both => exact hallows.elim
      | closed => cases hallows
  | connectEvents addr port =>
      cases stage with
      | down => exact hallows.elim
      | up => exact connectEvents_follows hholds hrun
      | both => exact hallows.elim
      | closed => cases hallows
  | close =>
      have hopen := hallows.open (by simp)
      exact close_follows hholds hopen hrun
  | cmdWrite bytes =>
      have hopen := hallows.open (by simp)
      refine follows_of_uses hholds (send_uses (hholds.command hopen) hrun) ?_
      cases stage <;> rfl
  | cmdRead size =>
      have hopen := hallows.open (by simp)
      refine follows_of_uses hholds (receive_uses (hholds.command hopen) hrun) ?_
      cases stage <;> rfl
  | initEvents =>
      have hstage := hallows.events trivial
      refine follows_of_uses hholds (initEvents_uses (hholds.events hstage) hrun) ?_
      cases stage <;> rfl
  | eventSend bytes =>
      have hstage := hallows.events trivial
      refine follows_of_uses hholds (send_uses (hholds.events hstage) hrun) ?_
      cases stage <;> rfl
  | eventRead size =>
      have hstage := hallows.events trivial
      refine follows_of_uses hholds (receive_uses (hholds.events hstage) hrun) ?_
      cases stage <;> rfl

end Requests

/-! ## Runs -/

/-- A runtime that has been made, without a connection. -/
def ipStart (memory : Option (Nat → UInt8)) (net : τ) : World (IpHost τ) where
  r := { ptpInit memory with connectionType := .ip }
  device := ⟨none, [], net⟩
  reallocs := 0
  log := []

/-- In every run that follows the protocol, only open sockets are used, and closed if
`getsockopt` never fails; without a connection no socket is open. -/
theorem sockets_used_while_open (N : Network τ) (memory : Option (Nat → UInt8)) (net : τ)
    {events : List (IpRequest × Int)}
    (hrun : Runs (Yield (IpRequest.exec N)) (ipStart memory net) events w)
    (hobeyed : ipProtocol.Obeyed .down events) :
    usesWatch.Obeyed (fun _ => false) w.device.calls ∧
    ((∀ fd, SocketCall.error fd false ∉ w.device.calls) →
      socketWatch.Obeyed (fun _ => false) w.device.calls) ∧
    (ipProtocol.after .down events = .down ∨ ipProtocol.after .down events = .closed →
      ∀ fd, w.device.table fd = false) := by
  have hall : ∀ {u v : World (IpHost τ)} {events : List (IpRequest × Int)} {stage : IpStage},
      Runs (Yield (IpRequest.exec N)) u events v → ipProtocol.Obeyed stage events →
      stage.Holds u → Names u v ∧ (ipProtocol.after stage events).Holds v := by
    intro u v events stage hrun
    induction hrun generalizing stage with
    | nil u => exact fun _ hholds => ⟨refl_of Names u, hholds⟩
    | @cons u middle v event events hstep _ ih =>
        obtain ⟨request, rc⟩ := event
        rintro ⟨hallows, hrest⟩ hholds
        obtain ⟨hnames, hnext⟩ := IpRequest.follows hholds hallows hstep
        obtain ⟨hnames', hend⟩ := ih hrest hnext
        exact ⟨trans_of Names hnames hnames', hend⟩
  obtain ⟨⟨made, hmade, huses, hlawful⟩, hend⟩ :=
    hall hrun hobeyed ⟨rfl, rfl, fun _ => rfl⟩
  obtain rfl : w.device.calls = made := hmade.trans (List.nil_append made)
  refine ⟨huses, hlawful, ?_⟩
  rintro (hdown | hclosed)
  · rw [hdown] at hend
    exact hend.2.2
  · rw [hclosed] at hend
    exact hend

theorem descriptor_pos (count : Nat) : (0 : Int) < count + 3 := by omega

/-- A network where everything succeeds: sockets are numbered by how many were asked for. -/
def steadyNetwork : Network Nat where
  socket table count :=
    if h : table (count + 3) = false then (some ⟨count + 3, descriptor_pos count, h⟩, count + 1)
    else (none, count)
  setNonblocking _ _ count := (true, count)
  isAddress _ := true
  connect _ _ _ count := (true, count)
  select _ count := (true, count)
  sockError _ count := (some 0, count)
  write _ bytes count := (some bytes.length, count)
  read _ size count := (some ⟨List.replicate size 0, List.length_replicate.le⟩, count)

/-- Both sockets are connected, the events are set up and both are closed. -/
def steadyEvents : List (IpRequest × Int) :=
  [(.connect [] 15740, 0), (.connectEvents [] 15740, 0), (.initEvents, 0), (.close, 0)]

theorem sockets_used_while_open_steady : ∃ w : World (IpHost Nat),
    Runs (Yield (IpRequest.exec steadyNetwork)) (ipStart (some fun _ => 0) 0) steadyEvents w ∧
    w.device.calls.length = 16 ∧ ∀ fd, w.device.table fd = false := by
  obtain ⟨rc₁, w₁, hconnect, hhow⟩ := run_of_returnsOn
    ((IpRequest.connect [] 15740).exec steadyNetwork) (ipStart (some fun _ => 0) 0)
    (fun rc w => decide (rc = 0) &&
      returnsOn ((IpRequest.connectEvents [] 15740).exec steadyNetwork) w fun rc w =>
        decide (rc = 0) && returnsOn (IpRequest.initEvents.exec steadyNetwork) w fun rc w =>
          decide (rc = 0) && returnsOn (IpRequest.close.exec steadyNetwork) w fun rc w =>
            decide (rc = 0 ∧ w.device.calls.length = 16)) (by decide +kernel)
  obtain ⟨hzero₁, hhow₁⟩ := Bool.and_eq_true_iff.mp hhow
  obtain ⟨rc₂, w₂, hevents, hhow₂⟩ := run_of_returnsOn _ _ _ hhow₁
  obtain ⟨hzero₂, hhow₂⟩ := Bool.and_eq_true_iff.mp hhow₂
  obtain ⟨rc₃, w₃, hinit, hhow₃⟩ := run_of_returnsOn _ _ _ hhow₂
  obtain ⟨hzero₃, hhow₃⟩ := Bool.and_eq_true_iff.mp hhow₃
  obtain ⟨rc₄, w₄, hclose, hhow₄⟩ := run_of_returnsOn _ _ _ hhow₃
  obtain ⟨rfl, hcalls⟩ := of_decide_eq_true hhow₄
  obtain rfl := of_decide_eq_true hzero₁
  obtain rfl := of_decide_eq_true hzero₂
  obtain rfl := of_decide_eq_true hzero₃
  have hrun : Runs (Yield (IpRequest.exec steadyNetwork)) (ipStart (some fun _ => 0) 0)
      steadyEvents w₄ := .cons hconnect (.cons hevents (.cons hinit (.single hclose)))
  obtain ⟨-, -, hnone⟩ := sockets_used_while_open steadyNetwork (some fun _ => 0) 0 hrun
    ⟨trivial, trivial, trivial, trivial, trivial⟩
  exact ⟨w₄, hrun, hcalls, hnone (.inr rfl)⟩

end Libpict
