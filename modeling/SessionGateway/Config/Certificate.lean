/-
  Certificates — the files that a secure listener needs.

  Both files must be there, and the certificate is looked for first.
-/
import SessionGateway.Config.Schema
import SessionGateway.Text.Quoted

namespace SessionGateway

/-- A file of a secure listener that is not there. -/
inductive MissingFile where
  | certificate (path : Text)
  | privateKey (path : Text)
  deriving Repr, DecidableEq

/-- What is said of a missing file. -/
def MissingFile.message : MissingFile → Text
  | certificate path => "Certificate file not found: ".toList ++ Text.quotedPath path
  | privateKey path => "Private key file not found: ".toList ++ Text.quotedPath path

/-- The first file that is not there; `there` says which paths lead to something. -/
def Config.Tls.missing? (there : Text → Bool) (t : Config.Tls) : Option MissingFile :=
  if !there t.certPath then some (.certificate t.certPath)
  else if !there t.keyPath then some (.privateKey t.keyPath)
  else none

end SessionGateway
