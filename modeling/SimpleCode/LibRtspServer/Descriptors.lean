import SimpleCode.Foundations.Runs
import SimpleCode.LibRtspServer.RtspParser

set_option autoImplicit false

namespace SimpleCode.LibRtspServer.Descriptors

open Foundations

-- An `int`: the numbers from 2^31 on are negative.
abbrev Sd := UInt32

def noSd : Sd := 0xffffffff

inductive Proc
  | lsn
  | rtsp
  | rtp
  | rtcp
deriving DecidableEq, Repr

-- Without an address the argument is the server.
structure SdHandler where
  sd : Sd
  proc : Proc
  arg : Option ℕ
deriving DecidableEq, Repr

-- The union, read as the descriptors of `udp`.
structure RtpRtcp where
  rtpSd : Sd
  rtcpSd : Sd
deriving DecidableEq, Repr

namespace RtpRtcp

-- The channels of `tcp` are the first two bytes of `rtp_sd`.
def setTcp (u : RtpRtcp) (rtpChn rtcpChn : UInt8) : RtpRtcp :=
  { u with rtpSd := u.rtpSd &&& (0xffff0000 : UInt32) ||| rtcpChn.toUInt32 <<< 8 ||| rtpChn.toUInt32 }

def sds (u : RtpRtcp) : List Sd := [u.rtpSd, u.rtcpSd]

end RtpRtcp

structure Sess where
  addr : ℕ
  rtspSd : Sd
  intlvdMode : Bool
  handlingState : HandlingState
  video : RtpRtcp
  audio : RtpRtcp
deriving DecidableEq, Repr

namespace Sess

variable (s : Sess)

def rtpRtcp : MediaType → RtpRtcp
  | .video => s.video
  | .audio => s.audio

def setRtpRtcp (media : MediaType) (u : RtpRtcp) : Sess :=
  match media with
  | .video => { s with video := u }
  | .audio => { s with audio := u }

def destroyedSds : List Sd :=
  s.rtspSd :: if s.intlvdMode then [] else s.video.sds ++ s.audio.sds

end Sess

inductive Owner
  | foreign
  | server
  | rtsp (addr : ℕ)
  | media (addr : ℕ) (media : MediaType)
deriving DecidableEq, Repr

def Owner.sess : Owner → Option ℕ
  | foreign | server => none
  | rtsp addr | media addr _ => some addr

structure Server where
  rtspSessList : List Sess
  sdHandlerList : List SdHandler
  opened : List (Sd × Owner)
deriving DecidableEq, Repr

namespace Server

variable (srv : Server)

def openSd (sd : Sd) (o : Owner) : Server := { srv with opened := (sd, o) :: srv.opened }

-- `EBADF` for a negative number and for one that is not open.
def closeSd (sd : Sd) : Server :=
  if 0x80000000 ≤ sd then srv else { srv with opened := srv.opened.filter (·.1 ≠ sd) }

def Fresh (sd : Sd) : Prop := sd < 0x80000000 ∧ sd ∉ srv.opened.map Prod.fst

instance (sd : Sd) : Decidable (srv.Fresh sd) := inferInstanceAs (Decidable (_ ∧ _))

def registerSdHandler (sd : Sd) (proc : Proc) (arg : Option ℕ) : Server :=
  { srv with sdHandlerList := srv.sdHandlerList ++ [⟨sd, proc, arg⟩] }

def deregisterSdHandler (sd : Sd) : Server :=
  { srv with sdHandlerList := srv.sdHandlerList.eraseP (·.sd == sd) }

def sess (addr : ℕ) : Option Sess := srv.rtspSessList.find? (·.addr == addr)

def modifySess (addr : ℕ) (f : Sess → Sess) : Server :=
  { srv with rtspSessList := srv.rtspSessList.map fun s => if s.addr = addr then f s else s }

structure CreateEnv where
  register : Bool
  recvBuf : Bool
  frmBuf : Bool
deriving DecidableEq, Repr

def createRtspSess (rtspSd : Sd) (addr : ℕ) (env : CreateEnv) : Server :=
  if ¬ env.register then (srv.openSd rtspSd .server).deregisterSdHandler rtspSd
  else if ¬ env.recvBuf ∨ ¬ env.frmBuf then
    ((srv.openSd rtspSd .server).registerSdHandler rtspSd .rtsp (some addr)).deregisterSdHandler rtspSd
  else
    let srv := (srv.openSd rtspSd (.rtsp addr)).registerSdHandler rtspSd .rtsp (some addr)
    { srv with rtspSessList := ⟨addr, rtspSd, false, .init, ⟨0, 0⟩, ⟨0, 0⟩⟩ :: srv.rtspSessList }

inductive Bound
  | bound
  | addrInUse (rebound : Bool)
  | failed
deriving DecidableEq, Repr

structure UdpEnv where
  firstSd : Option Sd
  bindFirst : Bool
  firstPort : Option UInt16
  secondSd : Option Sd
  bindSecond : Bound
  getsocknameSecond : Bool
  monitor : Bool
  registerRtp : Bool
  registerRtcp : Bool
  getpeername : Bool
deriving DecidableEq, Repr

def UdpEnv.sds (env : UdpEnv) : List Sd := env.firstSd.toList ++ env.secondSd.toList

section Setup

variable (addr : ℕ) (media : MediaType)

def setupIntlvdMode (rtpChn rtcpChn : UInt8) : Server :=
  srv.modifySess addr fun s => s.setRtpRtcp media ((s.rtpRtcp media).setTcp rtpChn rtcpChn)

def setupErr (firstSd secondSd : Sd) : Server := (srv.closeSd firstSd).closeSd secondSd

def assignUdp (env : UdpEnv) (firstSd secondSd : Sd) (firstPort : UInt16) : Server :=
  let u : RtpRtcp := if firstPort % 2 = 1 then ⟨secondSd, firstSd⟩ else ⟨firstSd, secondSd⟩
  let srv := srv.modifySess addr (·.setRtpRtcp media u)
  if ¬ env.monitor ∨ ¬ env.registerRtp then srv.setupErr firstSd secondSd
  else
    let srv := srv.registerSdHandler u.rtpSd .rtp (some addr)
    if ¬ env.registerRtcp then srv.setupErr firstSd secondSd
    else
      let srv := srv.registerSdHandler u.rtcpSd .rtcp (some addr)
      if ¬ env.getpeername then srv.setupErr firstSd secondSd else srv

def setupNonIntlvdMode (env : UdpEnv) : Server :=
  match env.firstSd with
  | none => srv.setupErr noSd noSd
  | some firstSd =>
    let srv := srv.openSd firstSd (.media addr media)
    if ¬ env.bindFirst then srv.setupErr firstSd noSd
    else match env.firstPort, env.secondSd with
      | some firstPort, some secondSd =>
        let srv := srv.openSd secondSd (.media addr media)
        if env.bindSecond = .failed ∨ env.bindSecond = .addrInUse false ∨ ¬ env.getsocknameSecond then
          srv.setupErr firstSd secondSd
        else srv.assignUdp addr media env firstSd secondSd firstPort
      | _, _ => srv.setupErr firstSd noSd

-- `create_rtp_sess`; `start_strm` does nothing with the descriptors.
def createRtpSess (s : Sess) (rtpChn rtcpChn : UInt8) (env : UdpEnv) : Server :=
  if s.intlvdMode then srv.setupIntlvdMode s.addr media rtpChn rtcpChn
  else srv.setupNonIntlvdMode s.addr media env

end Setup

-- The session of the list; the others that it is called with have been freed.
def destroyRtspSess (s : Sess) : Server :=
  if s.handlingState ≠ .init then srv
  else s.destroyedSds.foldl (fun srv sd => (srv.deregisterSdHandler sd).closeSd sd)
    { srv with rtspSessList := srv.rtspSessList.filter (·.addr ≠ s.addr) }

def containing (sd : Sd) : Option Sess :=
  srv.rtspSessList.find? fun s => s.rtspSd = sd ∨ sd ∈ s.video.sds ∨ sd ∈ s.audio.sds

def destroyRtspSessContainSd (sd : Sd) : Server :=
  match srv.containing sd with
  | none => srv
  | some s => srv.destroyRtspSess s

end Server

inductive Event
  | create (rtspSd : Sd) (addr : ℕ) (env : Server.CreateEnv)
  | transport (addr : ℕ) (intlvdMode : Bool)
  | setup (addr : ℕ) (media : MediaType) (rtpChn rtcpChn : UInt8) (env : Server.UdpEnv)
  | handling (addr : ℕ) (state : HandlingState)
  | destroy (addr : ℕ)
  | destroyContain (sd : Sd)
deriving DecidableEq, Repr

namespace Server

-- The kernel returns descriptors that are not open, the allocation an address that is not in use.
def step (srv : Server) : Event → Option Server
  | .create rtspSd addr env =>
    if srv.Fresh rtspSd ∧ srv.sess addr = none then some (srv.createRtspSess rtspSd addr env) else none
  | .transport addr intlvdMode => some (srv.modifySess addr ({ · with intlvdMode }))
  | .setup addr media rtpChn rtcpChn env =>
    if env.sds.Nodup ∧ env.sds.all (srv.Fresh ·) then
      (srv.sess addr).map fun s => srv.createRtpSess media s rtpChn rtcpChn env
    else none
  | .handling addr handlingState => some (srv.modifySess addr ({ · with handlingState }))
  | .destroy addr => some (match srv.sess addr with
    | none => srv
    | some s => srv.destroyRtspSess s)
  | .destroyContain sd => some (srv.destroyRtspSessContainSd sd)

def start (lsnSd : Sd) (foreign : List Sd) : Server :=
  ⟨[], [⟨lsnSd, .lsn, none⟩], (lsnSd, .server) :: foreign.map (·, .foreign)⟩

end Server

end SimpleCode.LibRtspServer.Descriptors
