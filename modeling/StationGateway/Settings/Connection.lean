import StationGateway.Credentials.Certificate
import StationGateway.Credentials.PrivateKey
import StationGateway.Files.Tree
import StationGateway.Settings.Basic
import StationGateway.Settings.DatabaseUrl

/-!
# Connections to the database

What can be said about the settings of a connection before it is opened: the database has to be
named properly, and for an encrypted connection the files of certificates and keys have to hold some
that can be used. -/

namespace StationGateway.Settings

open Credentials

/-- Why no connection can be opened with some settings. -/
inductive ConnectionError where
  /-- The database is not named properly. -/
  | databaseUrl
  /-- A path leads nowhere. -/
  | missing (path : String)
  /-- A file of certificates is malformed, or is a directory. -/
  | malformedCertificates (path : String)
  /-- A file has no certificates. -/
  | noCertificates (path : String)
  /-- No certificate of a file can be used. -/
  | unusableRoot (path : String)
  /-- The gateway has a certificate without a key or a key without a certificate. -/
  | unpaired
  /-- The file of the key is malformed, or is a directory. -/
  | malformedKey (path : String)
  /-- A file has no key. -/
  | noKey (path : String)
  /-- The certificate and the key cannot be used, or do not go together. -/
  | mismatch
  deriving DecidableEq, Repr

/-- The wording of an error. -/
def ConnectionError.message : ConnectionError → String
  | databaseUrl => "invalid NINJA_DATABASE_URL"
  | missing path => s!"failed to open {path}"
  | malformedCertificates path => s!"failed to parse certificates in {path}"
  | noCertificates path => s!"{path} contains no certificates"
  | unusableRoot path => s!"no usable root certificate in {path}"
  | unpaired => "NINJA_PG_SSL_CERT and NINJA_PG_SSL_KEY must be set together"
  | malformedKey path => s!"failed to parse private key in {path}"
  | noKey path => s!"{path} contains no private key"
  | mismatch => "client certificate does not match its key"

/-- The sections of a file. A directory has none, and a fault. -/
def readPem (files : FileTree) (path : String) : Except ConnectionError PemFile :=
  match files.place? path with
  | some (.file text) => .ok (.ofText text)
  | some _ => .ok ⟨[], false⟩
  | none => .error (.missing path)

/-- The certificates of a file, of which there must be some. -/
def readCertificates (files : FileTree) (path : String) :
    Except ConnectionError (List (List UInt8)) := do
  let file ← readPem files path
  let certificates :=
    (file.sections.filter fun part => part.kind = .certificate).map PemSection.bytes
  if !file.sound then .error (.malformedCertificates path)
  else if certificates.isEmpty then .error (.noCertificates path)
  else .ok certificates

/-- The kinds of sections that hold a key. -/
def keyKinds : List PemKind := [.rsaKey, .curveKey, .namedKey]

/-- The first key of a file. -/
def readKey (files : FileTree) (path : String) : Except ConnectionError PemSection := do
  let file ← readPem files path
  match file.sections.find? fun part => part.kind ∈ keyKinds with
  | some key => .ok key
  | none => .error (if file.sound then .noKey path else .malformedKey path)

/-- Checks the file of the certificates that the database is trusted by. -/
def checkRoot (files : FileTree) (path : String) : Except ConnectionError Unit := do
  let certificates ← readCertificates files path
  if certificates.any Certificate.isRoot then .ok () else .error (.unusableRoot path)

/-- Whether the first of some certificates holds the public key for a key. -/
def goTogether (certificates : List (List UInt8)) (key : PemSection) : Bool :=
  match certificates.head?.bind Certificate.ofBytes?, PrivateKey.public? key.kind key.bytes with
  | some certificate, some publicKey => certificate.publicKey = publicKey
  | _, _ => false

/-- Checks the gateway's own certificate and key. -/
def checkOwn (files : FileTree) : Option String → Option String → Except ConnectionError Unit
  | none, none => .ok ()
  | some certificate, some key => do
      let certificates ← readCertificates files certificate
      let key ← readKey files key
      if goTogether certificates key then .ok () else .error .mismatch
  | _, _ => .error .unpaired

/-- Checks the settings of a connection. Without certificates to trust the database by it is not
encrypted, and no file is read. -/
def checkConnection (files : FileTree) (settings : Settings) : Except ConnectionError Unit :=
  if !isDatabaseUrl settings.databaseUrl then .error .databaseUrl
  else
    match settings.rootCertificate with
    | none => .ok ()
    | some root => do
        checkRoot files root
        checkOwn files settings.certificate settings.key

end StationGateway.Settings
