import AirTrace.Text.Hexadecimal

/-!
# Opcodes of control packets

The first octet of a control packet's payload says what it asks for or reports.  Forty-two opcodes
are assigned, counted from zero.
-/

namespace AirTrace

/-- What a control packet asks for or reports. -/
inductive Opcode where
  | connectionUpdateInd
  | channelMapInd
  | terminateInd
  | encReq
  | encRsp
  | startEncReq
  | startEncRsp
  | unknownRsp
  | featureReq
  | featureRsp
  | pauseEncReq
  | pauseEncRsp
  | versionInd
  | rejectInd
  | peripheralFeatureReq
  | connectionParamReq
  | connectionParamRsp
  | rejectExtInd
  | pingReq
  | pingRsp
  | lengthReq
  | lengthRsp
  | phyReq
  | phyRsp
  | phyUpdateInd
  | minUsedChannelsInd
  | cteReq
  | cteRsp
  | periodicSyncInd
  | clockAccuracyReq
  | clockAccuracyRsp
  | cisReq
  | cisRsp
  | cisInd
  | cisTerminateInd
  | powerControlReq
  | powerControlRsp
  | powerChangeInd
  | subrateReq
  | subrateInd
  | channelReportingInd
  | channelStatusInd
  /-- A code with no meaning assigned. -/
  | reserved (code : UInt8)
  deriving DecidableEq, Repr

namespace Opcode

/-- The opcodes that have a code, in the order of their codes. -/
def assigned : List Opcode :=
  [connectionUpdateInd, channelMapInd, terminateInd, encReq, encRsp, startEncReq, startEncRsp,
    unknownRsp, featureReq, featureRsp, pauseEncReq, pauseEncRsp, versionInd, rejectInd,
    peripheralFeatureReq, connectionParamReq, connectionParamRsp, rejectExtInd, pingReq,
    pingRsp, lengthReq, lengthRsp, phyReq, phyRsp, phyUpdateInd, minUsedChannelsInd, cteReq,
    cteRsp, periodicSyncInd, clockAccuracyReq, clockAccuracyRsp, cisReq, cisRsp, cisInd,
    cisTerminateInd, powerControlReq, powerControlRsp, powerChangeInd, subrateReq, subrateInd,
    channelReportingInd, channelStatusInd]

/-- The opcode with a code. -/
def ofCode (code : UInt8) : Opcode := assigned.getD code.toNat (reserved code)

/-- The code of an opcode. -/
def code : Opcode → UInt8
  | reserved c => c
  | op => UInt8.ofNat (assigned.idxOf op)

/-- The name of an opcode. -/
def name : Opcode → String
  | connectionUpdateInd => "LL_CONNECTION_UPDATE_IND"
  | channelMapInd => "LL_CHANNEL_MAP_IND"
  | terminateInd => "LL_TERMINATE_IND"
  | encReq => "LL_ENC_REQ"
  | encRsp => "LL_ENC_RSP"
  | startEncReq => "LL_START_ENC_REQ"
  | startEncRsp => "LL_START_ENC_RSP"
  | unknownRsp => "LL_UNKNOWN_RSP"
  | featureReq => "LL_FEATURE_REQ"
  | featureRsp => "LL_FEATURE_RSP"
  | pauseEncReq => "LL_PAUSE_ENC_REQ"
  | pauseEncRsp => "LL_PAUSE_ENC_RSP"
  | versionInd => "LL_VERSION_IND"
  | rejectInd => "LL_REJECT_IND"
  | peripheralFeatureReq => "LL_PERIPHERAL_FEATURE_REQ"
  | connectionParamReq => "LL_CONNECTION_PARAM_REQ"
  | connectionParamRsp => "LL_CONNECTION_PARAM_RSP"
  | rejectExtInd => "LL_REJECT_EXT_IND"
  | pingReq => "LL_PING_REQ"
  | pingRsp => "LL_PING_RSP"
  | lengthReq => "LL_LENGTH_REQ"
  | lengthRsp => "LL_LENGTH_RSP"
  | phyReq => "LL_PHY_REQ"
  | phyRsp => "LL_PHY_RSP"
  | phyUpdateInd => "LL_PHY_UPDATE_IND"
  | minUsedChannelsInd => "LL_MIN_USED_CHANNELS_IND"
  | cteReq => "LL_CTE_REQ"
  | cteRsp => "LL_CTE_RSP"
  | periodicSyncInd => "LL_PERIODIC_SYNC_IND"
  | clockAccuracyReq => "LL_CLOCK_ACCURACY_REQ"
  | clockAccuracyRsp => "LL_CLOCK_ACCURACY_RSP"
  | cisReq => "LL_CIS_REQ"
  | cisRsp => "LL_CIS_RSP"
  | cisInd => "LL_CIS_IND"
  | cisTerminateInd => "LL_CIS_TERMINATE_IND"
  | powerControlReq => "LL_POWER_CONTROL_REQ"
  | powerControlRsp => "LL_POWER_CONTROL_RSP"
  | powerChangeInd => "LL_POWER_CHANGE_IND"
  | subrateReq => "LL_SUBRATE_REQ"
  | subrateInd => "LL_SUBRATE_IND"
  | channelReportingInd => "LL_CHANNEL_REPORTING_IND"
  | channelStatusInd => "LL_CHANNEL_STATUS_IND"
  | reserved _ => "LL_RESERVED"

/-- The text of an opcode: its name and code. -/
def text (op : Opcode) : String := op.name ++ " (0x" ++ Text.hexUpper 2 op.code.toNat ++ ")"

end Opcode

end AirTrace
