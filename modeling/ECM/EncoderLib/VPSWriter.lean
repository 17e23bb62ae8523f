import ECM.CommonLib.VPS
import ECM.EncoderLib.SEIwrite

/-! # Writing video parameter sets

`codeVPS` up to the profiles, tiers and levels. Those, and what follows them (the
DPB and HRD parameters and the extension), are parameters. -/

namespace ECM.EncoderLib.VLCWriter
open CommonLib CommonLib.BitStream Lib.Loop

/-- The profiles, tiers and levels of a VPS. -/
structure VPSProfileTierLevels (PTL : Type) where
  m_ptPresentFlag : List Bool
  m_ptlMaxTemporalId : List ℕ
  m_vpsProfileTierLevel : List PTL

/-- As `VPS()` sets them. -/
def VPSProfileTierLevels.new (PTL : Type) : VPSProfileTierLevels PTL where
  m_ptPresentFlag := true :: List.replicate (MAX_NUM_OLSS - 1) false
  m_ptlMaxTemporalId := List.replicate MAX_NUM_OLSS 0
  m_vpsProfileTierLevel := []

/-- The reference layers of the layer `i`. -/
def writeDirectRefLayers (vps : VPS) (i : ℕ) : WriteM Unit := do
  forRange 0 i fun j => do
    let direct ← readAt2 vps.m_vpsDirectRefLayerFlag i j
    WRITE_FLAG direct
  let maxTid ← readAt vps.m_vpsMaxTidIlRefPicsPlus1 i
  let presentFlag := decide (maxTid ≠ 7)
  WRITE_FLAG presentFlag
  if presentFlag then WRITE_CODE maxTid 3

def writeVPSLayer (vps : VPS) (i : ℕ) : WriteM Unit := do
  let layerId ← readAt vps.m_vpsLayerId i
  WRITE_CODE layerId 6
  if i > 0 ∧ vps.m_vpsAllIndependentLayersFlag = false then
    let independent ← readAt vps.m_vpsIndependentLayerFlag i
    WRITE_FLAG independent
    if independent = false then writeDirectRefLayers vps i

/-- The layers, with their number and that of their sub-layers. -/
def writeVPSLayers (vps : VPS) : WriteM Unit := do
  WRITE_CODE vps.m_VPSId 4
  WRITE_CODE (sub32 vps.m_uiMaxLayers 1) 6
  WRITE_CODE (sub32 vps.m_vpsMaxSubLayers 1) 3
  if vps.m_uiMaxLayers > 1 ∧ vps.m_vpsMaxSubLayers > 1 then
    WRITE_FLAG vps.m_vpsAllLayersSameNumSubLayersFlag
  if vps.m_uiMaxLayers > 1 then WRITE_FLAG vps.m_vpsAllIndependentLayersFlag
  forRange 0 vps.m_uiMaxLayers (writeVPSLayer vps)

/-- Which layers each output layer set outputs. -/
def writeOlsModeIdc (vps : VPS) : WriteM Unit := do
  if vps.m_vpsAllIndependentLayersFlag = false then WRITE_CODE vps.m_vpsOlsModeIdc 2
  if vps.m_vpsOlsModeIdc = 2 then
    WRITE_CODE (sub32 vps.m_vpsNumOutputLayerSets 2) 8
    forRange 1 vps.m_vpsNumOutputLayerSets fun i =>
      forRange 0 vps.m_uiMaxLayers fun j => do
        let output ← readAt2 vps.m_vpsOlsOutputLayerFlag i j
        WRITE_FLAG output

/-- The output layer sets. -/
def writeOlsOutputLayers (vps : VPS) : WriteM Unit := do
  if vps.m_vpsAllIndependentLayersFlag then WRITE_FLAG vps.m_vpsEachLayerIsAnOlsFlag
  if vps.m_vpsEachLayerIsAnOlsFlag = false then writeOlsModeIdc vps

/-- What is only there for more than one layer. -/
def writeOlss (vps : VPS) : WriteM Unit :=
  if vps.m_uiMaxLayers > 1 then do
    writeOlsOutputLayers vps
    check (sub32 vps.m_vpsNumPtls 1 ≥ vps.m_totalNumOLSs)
      "vps_num_ptls_minus1 shall be less than TotalNumOlss"
    WRITE_CODE (sub32 vps.m_vpsNumPtls 1) 8
  else pure ()

variable {PTL : Type}

/-- What the VPS holds of its profiles, tiers and levels itself. -/
def writePtPresentFlags (vps : VPS) (ptls : VPSProfileTierLevels PTL) : WriteM Unit :=
  forRange 0 vps.m_vpsNumPtls fun i => do
    if i > 0 then
      let present ← readAt ptls.m_ptPresentFlag i
      WRITE_FLAG present
    if vps.m_vpsAllLayersSameNumSubLayersFlag = false then
      let maxTid ← readAt ptls.m_ptlMaxTemporalId i
      WRITE_CODE maxTid 3

/-- Zero bits to the end of the byte, `rounds` at most. -/
def writeZeroBits : (rounds : ℕ) → WriteM Unit
  | 0 => pure ()
  | rounds + 1 => do
    let s ← get
    if s.numHeldBits ≠ 0 then
      WRITE_FLAG false
      writeZeroBits rounds

variable (codeProfileTierLevel : PTL → Bool → ℤ → WriteM Unit) (codeParameters : VPS → WriteM Unit)

def writeProfileTierLevels (vps : VPS) (ptls : VPSProfileTierLevels PTL) : WriteM Unit :=
  forRange 0 vps.m_vpsNumPtls fun i => do
    let ptl ← readAt ptls.m_vpsProfileTierLevel i
    let present ← readAt ptls.m_ptPresentFlag i
    let maxTid ← readAt ptls.m_ptlMaxTemporalId i
    codeProfileTierLevel ptl present ((maxTid : ℤ) - 1)

def codeVPS (vps : VPS) (ptls : VPSProfileTierLevels PTL) : WriteM Unit := do
  writeVPSLayers vps
  writeOlss vps
  writePtPresentFlags vps ptls
  writeZeroBits 8
  writeProfileTierLevels codeProfileTierLevel vps ptls
  codeParameters vps

end ECM.EncoderLib.VLCWriter
