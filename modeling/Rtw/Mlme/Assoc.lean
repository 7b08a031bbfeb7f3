import Rtw.Mlme.Ie
import Rtw.Mlme.StaMgt

/-!
# Authentication and association at an access point

`OnAuth` and `OnAssocReq`. What they read of the AP's configuration is `ApCfg`; the frames they answer
with are part of the result. `body` is a management frame behind its 24-byte header.
-/

namespace Rtw

/-- The access control list: addresses with their `valid` flag. -/
structure WlanAclPool where
  mode : Nat
  nodes : List (MacAddr × Bool)

/-- The configuration that `OnAuth` and `OnAssocReq` read. -/
structure ApCfg where
  apState : Bool
  dot11AuthAlgrthm : Nat
  dot11PrivacyAlgrthm : PrivacyAlg
  aclList : WlanAclPool
  ssid : List UInt8
  wpaPsk : Nat
  wpaGroupCipher : Nat
  wpaPairwiseCipher : Nat
  wpa2GroupCipher : Nat
  wpa2PairwiseCipher : Nat
  /-- `SELECTED_REGISTRAR` in `wps_beacon_ie`, `none` when there is no such element. -/
  wpsSelectedRegistrar : Option Nat
  htOption : Bool
  vhtOption : Bool
  p2pGo : Bool

/-- An authentication or (re)association request. -/
structure MgmtFrame where
  sa : MacAddr
  reassoc : Bool
  privacy : Bool
  body : List UInt8
  deriving DecidableEq

/-- The frames that are sent in answer. -/
inductive MgmtTx where
  | auth (hwaddr : MacAddr) (status : Nat)
  | asocRsp (reassoc : Bool) (hwaddr : MacAddr) (status aid : Nat)
  | deauth (hwaddr : MacAddr) (reason : Nat)
  deriving DecidableEq

def statsSuccessful : Nat := 0
def statsFailure : Nat := 1
def rsonCls2 : Nat := 6
def statsCapFail : Nat := 10
def statsNoSuppAlg : Nat := 13
def statsOutOfAuthSeq : Nat := 14
def statsChallengeFail : Nat := 15
def statsUnableHandleSta : Nat := 17
def wlanStatusApUnableToHandleNewSta : Nat := 17
def wlanStatusInvalidIe : Nat := 40
def wlanStatusGroupCipherNotValid : Nat := 41
def wlanStatusPairwiseCipherNotValid : Nat := 42

/-! ### Authentication -/

def rtwAccessCtrl (acl : WlanAclPool) (macAddr : MacAddr) : Bool :=
  let found := acl.nodes.any fun n => n.1 = macAddr && n.2
  match acl.mode with
  | 1 => !found
  | 2 => found
  | _ => true

/-- `auth_mode` of `OnAuth`. -/
def authMode (cfg : ApCfg) : Nat :=
  if cfg.dot11AuthAlgrthm = 2 ∧ cfg.dot11PrivacyAlgrthm ≠ .wep40 ∧ cfg.dot11PrivacyAlgrthm ≠ .wep104 then 0
  else cfg.dot11AuthAlgrthm

/-- The challenge text in a sequence-3 frame: it is looked for behind 10 bytes, whatever the frame's
IV takes up. -/
def challengeMatches (body chgTxt : List UInt8) : Except Nat Unit :=
  match rtwGetIe (body.drop 10) 16 (body.length - 10) with
  | none => .error statsChallengeFail
  | some (p, ieLen) =>
    if ieLen = 0 then .error statsChallengeFail
    else if (List.range 128).all fun i => byteAt body (10 + p + 2 + i) = byteAt chgTxt i then .ok ()
    else .error statsChallengeFail

/-- What an accepted sequence number does to the station, or the status of the rejection. -/
def authStep (cfg : ApCfg) (algorithm seq : Nat) (body : List UInt8) (p : StaInfo) : Except Nat StaInfo :=
  if p.authSeq + 1 ≠ seq then .error statsOutOfAuthSeq
  else
    let open_ := algorithm = 0 ∧ (authMode cfg = 0 ∨ authMode cfg = 2 ∨ authMode cfg = 3)
    let step : Except Nat StaInfo :=
      if open_ then
        if seq = 1 then
          .ok { p with state := { p.state with authNull := false, authSuccess := true }, authalg := algorithm }
        else .error statsOutOfAuthSeq
      else if seq = 1 then
        .ok { p with
          chgTxt := .replicate 128 78
          state := { p.state with authNull := false, authState := true }
          authalg := algorithm
          authSeq := 2 }
      else if seq = 3 then do
        challengeMatches body p.chgTxt
        return { p with state := { p.state with authState := false, authSuccess := true } }
      else .error statsOutOfAuthSeq
    step.map fun p =>
      { p with authSeq := if p.state.authSuccess || p.state.assocSuccess then 0 else seq + 1 }

/-- `OnAuth`. For a frame with the privacy bit `body` is what `rtw_wep_decrypt` leaves in the buffer. -/
def onAuth (cfg : ApCfg) (f : MgmtFrame) (s : StaPriv) : StaPriv × Bool × Option MgmtTx :=
  if !cfg.apState then (s, false, none)
  else
    let offset := if f.privacy then 4 else 0
    let algorithm := byteAt f.body offset + 256 * byteAt f.body (offset + 1)
    let seq := byteAt f.body (offset + 2) + 256 * byteAt f.body (offset + 3)
    if (algorithm > 0 ∧ authMode cfg = 0) ∨ (algorithm = 0 ∧ authMode cfg = 1) then
      (s, false, some (.auth f.sa statsNoSuppAlg))
    else if !rtwAccessCtrl cfg.aclList f.sa then (s, false, some (.auth f.sa statsUnableHandleSta))
    else
      let found : Option (StaPriv × StaId) :=
        match rtwGetStainfo s f.sa with
        | some i => some (s, i)
        | none =>
          (rtwAllocStainfo s f.sa).map fun (s, i) =>
            (s.modify i fun p => { p with state := { authNull := true }, authSeq := 0 }, i)
      match found with
      | none => (s, false, some (.auth f.sa statsUnableHandleSta))
      | some (s, i) =>
        match authStep cfg algorithm seq f.body (s.sta i) with
        | .error status => (rtwFreeStainfo s i, false, some (.auth f.sa status))
        | .ok p => (s.modify i fun _ => p, true, some (.auth (s.sta i).hwaddr statsSuccessful))

/-! ### Association -/

/-- The SSID must be the one of the BSS. -/
def ssidStatus (cfg : ApCfg) (ies : List UInt8) : Nat :=
  match rtwGetIe ies 0 ies.length with
  | none => statsFailure
  | some (p, ieLen) =>
    if ieLen = 0 then statsFailure
    else if (ies.drop (p + 2)).take cfg.ssid.length ≠ cfg.ssid then statsFailure
    else if ieLen ≠ cfg.ssid.length then statsFailure
    else statsSuccessful

/-- The ciphers of an RSN or WPA element against the ones that are allowed. -/
def ciphersStatus (parsed : Option (Nat × Nat)) (groupCipher pairwiseCipher : Nat) : Nat :=
  match parsed with
  | none => wlanStatusInvalidIe
  | some (group, pairwise) =>
    if pairwise &&& pairwiseCipher = 0 then wlanStatusPairwiseCipherNotValid
    else if group &&& groupCipher = 0 then wlanStatusGroupCipherNotValid
    else statsSuccessful

/-- Whether the RSN or WPA element is used (`wpa_ie`), and the status of its check. -/
def wpaStatus (cfg : ApCfg) (ies : List UInt8) (elems : Elems) : Bool × Nat :=
  let enabled (bit : Nat) (k : ElemKind) := if cfg.wpaPsk.testBit bit then elems k else none
  match enabled 1 .rsnIe, enabled 0 .wpaIe with
  | some (pos, len), _ =>
    (true, ciphersStatus (rtwParseWpa2Ie ies pos len) cfg.wpa2GroupCipher cfg.wpa2PairwiseCipher)
  | none, some (pos, len) =>
    (true, ciphersStatus (rtwParseWpaIe ies pos len) cfg.wpaGroupCipher cfg.wpaPairwiseCipher)
  | none, none => (false, statsSuccessful)

/-- WPS is allowed only while a registrar is selected; a WPA element needs an AP with WPA. -/
def wpsStatus (cfg : ApCfg) (wpaIe : Bool) : Nat :=
  if !wpaIe then
    if cfg.wpaPsk > 0 ∧ cfg.wpsSelectedRegistrar = some 0 then statsUnableHandleSta else statsSuccessful
  else if cfg.wpaPsk = 0 then wlanStatusInvalidIe
  else statsSuccessful

/-- A station with HT or VHT capabilities needs an AP with that option. -/
def htStatus (cfg : ApCfg) (elems : Elems) : Nat :=
  let staHt := match elems .htCapabilities with
    | some (_, len) => decide (len ≥ 26)
    | none => false
  let staVht := match elems .vhtCapabilities with
    | some (_, len) => decide (len = 12)
    | none => false
  if !cfg.htOption && staHt then statsFailure
  else if !cfg.vhtOption && staVht then statsFailure
  else statsSuccessful

/-- `process_assoc_req_p2p_ie`: what it returns, which is all that `OnAssocReq` looks at. -/
def processAssocReqP2pIe (cfg : ApCfg) (ies : List UInt8) : Nat :=
  if !cfg.p2pGo then 5
  else if (rtwGetP2pIe ies).isNone then 4
  else 0

def p2pStatus (cfg : ApCfg) (ies : List UInt8) : Nat :=
  if cfg.p2pGo && (rtwGetP2pIe ies).isSome then
    if processAssocReqP2pIe cfg ies > 0 then statsCapFail else statsSuccessful
  else statsSuccessful

/-- The checks of `OnAssocReq` on the elements of the request, in order. -/
def assocReqStatus (cfg : ApCfg) (ies : List UInt8) : Nat :=
  let (res, elems) := rtwIeee80211ParseElems ies
  if res = .parseFailed ∨ elems .ssid = none then statsFailure
  else if ssidStatus cfg ies ≠ statsSuccessful then ssidStatus cfg ies
  else if rtwGetIe ies 1 ies.length = none then statsFailure
  else
    let (wpaIe, status) := wpaStatus cfg ies elems
    if status ≠ statsSuccessful then status
    else if wpsStatus cfg wpaIe ≠ statsSuccessful then wpsStatus cfg wpaIe
    else if htStatus cfg elems ≠ statsSuccessful then htStatus cfg elems
    else p2pStatus cfg ies

def MgmtFrame.ieOffset (f : MgmtFrame) : Nat := if f.reassoc then 10 else 4

/-- The elements of a (re)association request. -/
def MgmtFrame.ies (f : MgmtFrame) : List UInt8 := f.body.drop f.ieOffset

/-- The state change of a station that asks for association, `none` when it is not authenticated. -/
def FwState.onAssocReq (st : FwState) : Option FwState :=
  if !st.authSuccess then
    if !st.assocSuccess then none else some { st with assocSuccess := false, assocState := true }
  else some { st with authSuccess := false, assocState := true }

def onAssocReqFail (s : StaPriv) (i : StaId) (f : MgmtFrame) (status : Nat) :
    StaPriv × Bool × Option MgmtTx :=
  let s := s.modify i fun p => { p with aid := 0 }
  (s, false, some (.asocRsp f.reassoc (s.sta i).hwaddr status (s.sta i).aid))

def onAssocReq (cfg : ApCfg) (f : MgmtFrame) (s : StaPriv) : StaPriv × Bool × Option MgmtTx :=
  if !cfg.apState then (s, false, none)
  else if f.body.length < f.ieOffset then (s, false, none)
  else
    match rtwGetStainfo s f.sa with
    | none => (s, false, some (.deauth f.sa rsonCls2))
    | some i =>
      match (s.sta i).state.onAssocReq with
      | none => (s, false, some (.deauth f.sa rsonCls2))
      | some st =>
        let s := s.modify i fun p => { p with state := st }
        if assocReqStatus cfg f.ies ≠ statsSuccessful then
          onAssocReqFail s i f (assocReqStatus cfg f.ies)
        else
          match getUniqueAid s i with
          | none => onAssocReqFail s i f wlanStatusApUnableToHandleNewSta
          | some s =>
            let s := s.modify i fun p =>
              { p with state := { p.state with assocState := false, assocSuccess := true } }
            (s, true, some (.asocRsp f.reassoc (s.sta i).hwaddr statsSuccessful (s.sta i).aid))

end Rtw
