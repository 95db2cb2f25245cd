import AnotherDimension.Pairing.Peer

-- Where an envelope is posted: the relay's address and the mailbox in it.

-- The errors of the relay client, as the daemon tells them apart.
inductive RelayError
  | invalidEndpoint
  | trustRequired
  | tlsConfiguration
  | tlsHandshake
  | unsupportedTransport
  | invalidCapability
  | connect
  | timeout
  | responseTooLarge
  | invalidResponse
  | rejected (status : UInt16)
  deriving DecidableEq, Repr

structure RelayEndpoint where
  origin            : String
  path              : String
  capability        : String
  tlsCertificatePin : Option (ByteBlock 32)
  tlsServerName     : String
  deriving DecidableEq

namespace RelayEndpoint

-- `Authority::host`: what is between the user and the port, with the brackets of an IPv6 address.
def hostOf (authority : String) : String :=
  let host := Text.lastSegment '@' authority.toList
  match host with
  | '[' :: _ => .ofList <| host.takeWhile (· ≠ ']') ++ [']']
  | _        => .ofList <| host.takeWhile (· ≠ ':')

def isLoopback (host : String) : Bool :=
  host = "127.0.0.1" || host = "localhost" || host = "[::1]"

def fromInboxUrlWithPin (value : String) (tlsCertificatePin : Option (ByteBlock 32)) :
    Except RelayError RelayEndpoint :=
  match Uri.parse value with
  | some { scheme := some scheme, authority := some authority, path, query } =>
    let host := hostOf authority
    let capability := Text.lastSegment '/' path.toList
    if scheme = "http" ∧ (!isLoopback host ∨ tlsCertificatePin.isSome) then
      .error .unsupportedTransport
    else if scheme = "https" ∧ tlsCertificatePin.isNone then
      .error .trustRequired
    else if scheme ≠ "http" ∧ scheme ≠ "https" then
      .error .unsupportedTransport
    else if query.isSome ∨ path.isEmpty ∨ !inboxPath.toList.isPrefixOf path.toList then
      .error .invalidEndpoint
    else if !isCapability capability then
      .error .invalidCapability
    else
      .ok {
        origin            := scheme ++ "://" ++ authority
        path              := path
        capability        := .ofList capability
        tlsCertificatePin := tlsCertificatePin
        tlsServerName     := host
      }
  | _                                                                        =>
    .error .invalidEndpoint

end RelayEndpoint
