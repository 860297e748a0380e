import PreconfGateway.Platform

/-! The settings that the modelled functions read. -/
namespace PreconfGateway
open Types

structure ValidationConfig where
  slasherWhitelist : List String

structure BeaconApiConfig where
  genesisTime : UInt64

structure ConstraintsApiConfig where
  requestTimeoutSecs : UInt64
  maxRetries : Nat
  authorizedBuilders : List String

structure DelegationConfig where
  lookaheadEpochs : UInt64
  domainApplicationGateway : String

structure FeeConfig (P : Platform) where
  scalingFactor : P.float.F64
  defaultGasLimit : UInt64
  minFeeMultiplier : P.float.F64
  maxFeeMultiplier : P.float.F64

structure RethConfig (P : Platform) where
  feeConfig : FeeConfig P

structure SigningConfig (P : Platform) where
  ecdsaPrivateKey : P.SecretKey
  blsPrivateKey : P.BlsSecretKey
  blsPublicKey : BlsPublicKey
  committerAddress : String

structure Config (P : Platform) where
  validation : ValidationConfig
  beaconApi : BeaconApiConfig
  constraintsApi : ConstraintsApiConfig
  delegation : DelegationConfig
  reth : RethConfig P
  signing : SigningConfig P

end PreconfGateway
