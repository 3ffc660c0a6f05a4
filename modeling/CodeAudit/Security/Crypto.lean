import CodeAudit.Security.Splice
import CodeAudit.Text.Literal

/-!
# Weak hashes and ciphers

Lines that call or import a broken hash or cipher.  A line is reported once, however many rules
fit it, and lines that begin like a comment are passed over.
-/

namespace CodeAudit.Security

def weakHash : Pattern := .words ["md5", "sha1"]

def goCryptoRules : List Pattern :=
  [.chain [.word "\"crypto/", .words ["md5", "sha1", "des", "rc4"], .char '"'],
    .chain [.wordEdge, weakHash, .char '.', .words ["New", "Sum"], .spaces, .char '('],
    .chain [.wordEdge, .words ["des", "rc4"], .word ".NewCipher", .spaces, .char '(']]

def scriptCryptoRules : List Pattern :=
  let quote := Pattern.one fun c => c == '"' || c == '\'' || c == Char.ofNat 0x60
  [.chain [.word "createHash", .spaces, .char '(', .spaces, quote, weakHash, quote],
    .chain [.wordEdge, .word "createCipher", .spaces, .char '(']]

def pythonCryptoRules : List Pattern :=
  [.chain [.wordEdge, .word "hashlib.", weakHash, .spaces, .char '('],
    .chain [.wordEdge, .word "hashlib.new", .spaces, .char '(', .spaces, .charIn "\"'", weakHash,
      .charIn "\"'"],
    .chain [.wordEdge, .words ["DES.new", "ARC4"], .wordEdge]]

/-- Rules for each dialect; without a grammar, all of them. -/
def cryptoRules : Dialect → List Pattern
  | .go => goCryptoRules
  | .javascript => scriptCryptoRules
  | .python => pythonCryptoRules
  | .generic => goCryptoRules ++ scriptCryptoRules ++ pythonCryptoRules

def cryptoRemedy : Dialect → String
  | .go => "Use SHA-256 or SHA-512 from crypto/sha256 or crypto/sha512"
  | .javascript => "Use crypto.subtle.digest with SHA-256 or SHA-512"
  | .python => "Use hashlib.sha256() or hashlib.sha512()"
  | .generic =>
    "Use a modern hash such as SHA-256 or SHA-512 and an authenticated cipher such as AES-GCM"

/-- Every rule reports at this confidence. -/
def cryptoConfidence : Float := 0.9

/-- Lines that use a broken hash or cipher. -/
def weakCrypto (dialect : Dialect) (s : Snippet) : List Vulnerability :=
  s.lines.filterMap fun (line, text) =>
    if !Text.isCommentLine text && (cryptoRules dialect).any (·.occursIn text) then
      some (((Vulnerability.atLine .insecureCrypto .high line text
        "Insecure cryptographic hash function detected (MD5 or SHA1)").describe
        "MD5 and SHA1 are cryptographically broken and should not be used"
        (cryptoRemedy dialect)).withConfidence cryptoConfidence)
    else none

end CodeAudit.Security
