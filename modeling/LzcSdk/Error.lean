import LzcSdk.Lib.ByteIo

/-!
# Errors

The errors that the modelled functions return. An input/output error converts into `remoteSocksIo`, as the source's
`#[from] io::Error` does.

The source has one enumeration. Here the sessions and the token provider have `Error`, and `SdkError` adds the variants
that only the functions before a session return.
-/

namespace LzcSdk

open ByteIo (IoError FromIo)

/-- Errors returned by the `LazyCat` SDK compatibility layer. -/
inductive Error where
  /-- A tonic channel could not be configured or connected. -/
  | transport
  /-- A gRPC method returned a status response. -/
  | grpcStatus (code : Nat)
  /-- The application private key cannot produce Go-compatible auth signatures. -/
  | unsupportedAuthSigningKey
  /-- Signing the application identity failed. -/
  | authSigning
  /-- The device returned a token without an expiry deadline. -/
  | missingTokenDeadline
  /-- The device returned an invalid token expiry deadline. -/
  | invalidTokenDeadline
  /-- An auth token cannot be encoded as gRPC metadata. -/
  | invalidAuthTokenMetadata
  /-- `HPortalSys` returned a malformed or unsupported `RemoteSocks` URL. -/
  | invalidRemoteSocksEndpoint
  /-- A SOCKS address is malformed or cannot be represented on the wire. -/
  | invalidSocksAddress
  /-- A SOCKS domain or custom address exceeds the one-byte wire length. -/
  | socksAddressTooLong
  /-- A SOCKS peer used an address type not defined by RFC 1928. -/
  | unsupportedSocksAddressType (addressType : UInt8)
  /-- A network operation used by `RemoteSocks` failed. -/
  | remoteSocksIo (source : IoError)
  /-- Connecting to the `RemoteSocks` proxy exceeded the configured deadline. -/
  | remoteSocksTimeout
  /-- A SOCKS peer replied with an unexpected protocol version. -/
  | unexpectedSocksVersion (version : UInt8)
  /-- A SOCKS peer rejected every offered authentication method. -/
  | socksNoAcceptableAuthentication
  /-- A SOCKS peer selected an authentication method this SDK does not support. -/
  | unsupportedSocksAuthentication (method : UInt8)
  /-- A SOCKS reply used a non-zero reserved byte. -/
  | invalidSocksReservedByte (reserved : UInt8)
  /-- A SOCKS command failed with the provided RFC 1928 reply code. -/
  | socksReply (code : UInt8)
  /-- A SOCKS UDP datagram had invalid reserved or framing bytes. -/
  | invalidSocksUdpHeader
  /-- SOCKS UDP fragmentation is not supported by this SDK. -/
  | unsupportedSocksUdpFragment (fragment : UInt8)
  /-- A UDP payload cannot fit in one transport frame. -/
  | socksUdpPayloadTooLarge
  /-- An operation requiring a fixed UDP peer was used on a bound socket. -/
  | socksUdpNotConnected
  /-- The `RemoteSocks` TCP control stream has closed. -/
  | remoteSocksControlClosed
  /-- A SOCKS address cannot be used as a concrete UDP socket address. -/
  | invalidSocksUdpAddress
  deriving DecidableEq, Repr

instance : FromIo Error := ⟨.remoteSocksIo⟩

/-- Errors of loading an identity, and of finding and asking a device. -/
inductive SdkError where
  /-- A runtime credential could not be read. -/
  | credentialRead (path : String) (source : IoError)
  /-- A certificate file was empty, malformed, or unsupported. -/
  | invalidCertificate (path reason : String)
  /-- A private key file was empty, malformed, unsupported, or mismatched. -/
  | invalidPrivateKey (path reason : String)
  /-- A device API URL is malformed or uses an unsupported scheme. -/
  | invalidDeviceUrl
  /-- The device does not implement the optional service-status API. -/
  | serviceStatusUnsupported
  /-- Resolving the `LazyCat` host-service address failed. -/
  | serviceAddressLookup (source : IoError)
  /-- No resolved host-service candidate had a usable local route. -/
  | serviceAddressNoRoute (source : Option IoError)
  /-- A value cannot be represented as gRPC metadata. -/
  | invalidMetadataValue
  /-- The request was not received over authenticated TLS. -/
  | unauthenticatedPeer
  /-- `LazyCat` application identity requires exactly one peer certificate. -/
  | invalidPeerCertificateCount (count : Nat)
  /-- The peer certificate could not be decoded as X.509. -/
  | invalidPeerCertificate
  /-- An error of a session. -/
  | session (error : Error)
  deriving DecidableEq, Repr

end LzcSdk
