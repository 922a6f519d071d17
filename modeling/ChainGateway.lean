import ChainGateway.Main
import ChainGateway.Provider.Registry
import ChainGateway.Proofs.Digits
import ChainGateway.Proofs.Rlp
import ChainGateway.Proofs.Submission
import ChainGateway.Proofs.TransactionCodec
import ChainGateway.Proofs.RequestDiscipline
import ChainGateway.Proofs.ModularPower
import ChainGateway.Proofs.Primality
import ChainGateway.Proofs.CurveGroup
import ChainGateway.Proofs.GeneratorOrder
import ChainGateway.Proofs.Signature
import ChainGateway.Proofs.Relay
import ChainGateway.Proofs.Utf8
import ChainGateway.Proofs.CallData
import ChainGateway.Proofs.ReplyClassification
import ChainGateway.Proofs.Routing
import ChainGateway.Proofs.JsonTokens
import ChainGateway.Proofs.JsonText
import ChainGateway.Proofs.RecordText
import ChainGateway.Proofs.EnvelopeText
import ChainGateway.Proofs.CommandRuns
import ChainGateway.Proofs.NeededSettings
import ChainGateway.Proofs.HexText
import ChainGateway.Proofs.MemberOrder
import ChainGateway.Proofs.ProviderSlots
import ChainGateway.Proofs.ValueReading
import ChainGateway.Proofs.ProviderData
import ChainGateway.Proofs.FeeLimits
import ChainGateway.Proofs.DocumentReading
import ChainGateway.Proofs.LooseEnvelope
import ChainGateway.Proofs.ReplyIdentity
import ChainGateway.Proofs.TransactionId
import ChainGateway.Proofs.ErrorLayers
import ChainGateway.Proofs.HexSpelling
import ChainGateway.Proofs.BridgeConstruction
import ChainGateway.Proofs.PrettyText
import ChainGateway.Proofs.ReadResults
import ChainGateway.Proofs.CommandOutput
import ChainGateway.Proofs.ByteData
import ChainGateway.Proofs.Dictionaries
import ChainGateway.Proofs.OverrideDecoding
import ChainGateway.Proofs.LogDirectives
import ChainGateway.Proofs.QuantityText
import ChainGateway.Proofs.KeptIntegers
import ChainGateway.Proofs.FieldPlaces
import ChainGateway.Proofs.QuantityReading
