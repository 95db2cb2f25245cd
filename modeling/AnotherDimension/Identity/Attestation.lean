import AnotherDimension.Identity.Certificate

-- What a device signs for its MLS credential, and an account to vouch for another one.

namespace Identity

def domainMlsCredential : Bytes := Bytes.utf8 "another-dimension/daemon/mls-credential/v1"

def credentialMessage (certificate : DeviceCertificate) : Bytes :=
  domainMlsCredential ++ block certificate.accountPublicKey.val ++
    block (Bytes.utf8 certificate.deviceId) ++ block certificate.devicePublicKey.val ++
    block certificate.protocolPackageHash.val ++ Bytes.ofNat 8 certificate.issuedAt.toNat ++
    Bytes.ofNat 8 certificate.expiresAt.toNat ++ block certificate.signature.val

-- `PeerAttestation::transcript`
def attestationTranscript (attestorId subjectId subjectDeviceKey : String) (createdAt : UInt64) :
    Bytes :=
  Bytes.utf8 <| "another-dimension/attestation/v1\nattestor=" ++ attestorId ++ "\nsubject=" ++
    subjectId ++ "\nsubject_device_key=" ++ subjectDeviceKey ++ "\ncreated_at=" ++
    Text.formatU64 createdAt ++ "\n"

end Identity
