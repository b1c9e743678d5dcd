/-
  Signatures — the type of raw octets by their first few.

  A closed table in order: the first signature that fits wins.  Eleven octets are
  compared, and a shorter body counts as if zeros followed.
-/
import SessionGateway.Text.Basic

namespace SessionGateway

/-- The octets that a body of some type begins with; `none` fits every octet. -/
structure Signature where
  octets : List (Option UInt8)
  media : Text

namespace Signature

/-- The number of octets that are compared. -/
def width : Nat := 11

/-- A signature without free octets. -/
def plain (media : String) (octets : Bytes) : Signature := ⟨octets.map some, media.toList⟩

/-- A signature of ASCII characters. -/
def letters (media : String) (start : String) : Signature :=
  plain media (start.toList.map fun c => UInt8.ofNat c.toNat)

/-- The signatures, in the order in which they are tried. -/
def table : List Signature :=
  [plain "application/java-vm" [0xCA, 0xFE, 0xBA, 0xBE],
    plain "application/msword" [0xD0, 0xCF, 0x11, 0xE0, 0xA1, 0xB1, 0x1A, 0xE1],
    letters "application/pdf" "%PDF-1.",
    plain "image/photoshop" [0x38, 0x42, 0x50, 0x53, 0x00, 0x01],
    letters "application/postscript" "%!PS",
    plain "audio/mp3" [0xFF, 0xFB, 0x30],
    letters "audio/mp3" "ID3",
    plain "application/x-java-serialized-object" [0xAC, 0xED],
    letters "text/html" "<!",
    letters "text/html" "<html",
    letters "text/html" "<head",
    letters "text/html" "<body",
    letters "text/html" "<HTML",
    letters "text/html" "<HEAD",
    letters "text/html" "<BODY",
    letters "application/xml" "<?xml ",
    plain "application/xml" [0xFE, 0xFF, 0x00, 0x3C, 0x00, 0x3F, 0x00, 0x78],
    plain "application/xml" [0xFF, 0xFE, 0x3C, 0x00, 0x3F, 0x00, 0x78, 0x00],
    letters "image/bmp" "BM",
    plain "image/tiff" [0x49, 0x49, 0x2A, 0x00],
    plain "image/tiff" [0x4D, 0x4D, 0x00, 0x2A],
    letters "image/gif" "GIF8",
    letters "image/x-bitmap" "#def",
    letters "image/x-pixmap" "! XPM2",
    plain "image/png" [0x89, 0x50, 0x4E, 0x47, 0x0D, 0x0A, 0x1A, 0x0A],
    plain "image/jpeg" [0xFF, 0xD8, 0xFF, 0xE0],
    ⟨[some 0xFF, some 0xD8, some 0xFF, some 0xE1, none, none, some 0x45, some 0x78, some 0x69,
      some 0x66, some 0x00], "image/jpeg".toList⟩,
    plain "image/jpg" [0xFF, 0xD8, 0xFF, 0xEE],
    ⟨[some 0x41, some 0x43, none, none, none, none, some 0x00, some 0x00, some 0x00, some 0x00,
      some 0x00], "application/acad".toList⟩,
    letters "audio/basic" ".snd",
    letters "audio/basic" "dns.",
    letters "audio/x-wav" "RIFF",
    letters "application/zip" "PK"]

/-- Whether a signature fits the first octets of a body. -/
def fits (s : Signature) (start : Bytes) : Bool :=
  (s.octets.zip start).all fun (expected, actual) => expected.all (· == actual)

/-- The first `width` octets of a body, with zeros behind a shorter one. -/
def start (body : Bytes) : Bytes :=
  let first := body.take width
  first ++ List.replicate (width - first.length) 0

/-- The type that the first octets of a body show. -/
def sniff? (body : Bytes) : Option Text :=
  (table.find? fun s => s.fits (start body)).map (·.media)

end Signature

end SessionGateway
