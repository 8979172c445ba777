import R2CP.Spec.ValidatorSound
import R2CP.Spec.ParserFailures
import R2CP.Spec.ParserFaithful
import R2CP.Spec.SerializerCorrect
import R2CP.Spec.QueueInterleaving
import R2CP.Spec.OperatorConnection
import R2CP.Spec.RegistryInvariant
import R2CP.Spec.PacketProcessorCorrect
import R2CP.Spec.Dispatch
import R2CP.Spec.Base64Correct
import R2CP.Spec.ThreadSafety
import R2CP.Spec.QueueCapacity
import R2CP.Spec.SerializedContent
import R2CP.Spec.UnknownCommands
import R2CP.Spec.ParameterLoop
import R2CP.Spec.ParserEntries
import R2CP.Spec.LogFormat
import R2CP.Spec.ParserLog
import R2CP.Spec.FrameErasure
import R2CP.Spec.FrameDiscipline
import R2CP.Spec.ReadersExact
import R2CP.Spec.SerializerOffsets
import R2CP.Spec.PacketSize
import R2CP.Spec.ParameterFamilies
import R2CP.Spec.ObjectReuse
import R2CP.Spec.DeepCopyCorrect
import R2CP.Spec.Base64Bits
import R2CP.Spec.Base64Canonical
import R2CP.Spec.QueueLinearizable
import R2CP.Spec.BrokerProgress
import R2CP.Spec.LoggerDelivery
import R2CP.Spec.PacketNormalForm
import R2CP.Spec.BrokerCalls
import R2CP.Spec.BrokerLifecycle
import R2CP.Spec.Base64Join
import R2CP.Spec.BrokerResponses
import R2CP.Spec.BrokerOperation
