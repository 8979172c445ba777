import R2CP.Native.CommandDictionary

/-!
# Commands and parameters

`R2CPParameter` and `R2CPCommand` with the getters that the parser, the
serializer and the packet processor use. The counts are `uint32_t`, so the
getters truncate the vector sizes modulo `2 ^ 32`.
-/

namespace R2CP

/-- A parameter code with its raw data. -/
structure R2CPParameter where
  parameterCode : UInt32
  parameterData : List UInt8
  deriving DecidableEq, Repr

/-- A command code with its parameters. -/
structure R2CPCommand where
  commandCode : UInt32
  commandParameters : List R2CPParameter
  deriving DecidableEq, Repr

/-- `getparameterdatasize`, a size modulo `2 ^ 32`. -/
def R2CPParameter.getParameterDataSize (p : R2CPParameter) : UInt32 :=
  UInt32.ofNat p.parameterData.length

/-- `getnumberofcommandparameters`, likewise. -/
def R2CPCommand.getNumberOfCommandParameters (c : R2CPCommand) : UInt32 :=
  UInt32.ofNat c.commandParameters.length

end R2CP
