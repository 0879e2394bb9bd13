import TersePath.Xml.CodePage

/-!
Encodings that a document may name for itself. The bytes of a document that names one are those of its
text in UTF-8, read again as characters of the encoding.
-/

namespace TersePath.Xml

/-- How bytes are read: a byte below `start` is the character of its number, and the bytes from there
on are the characters of `upper`. -/
structure Encoding where
  names : List String
  start : Nat
  upper : String

namespace Encoding

def numbered (number : String) (names : List String) (upper : String) : Encoding :=
  ⟨["ISO-8859-", "ISO8859-", "ISO_8859-"].map (· ++ number) ++ names, 0xa0, upper⟩

def ofPage (names : List String) (upper : String) : Encoding := ⟨names, 0x80, upper⟩

def ofAscii (names : List String) : Encoding := ofPage names ""

def latin1 : Encoding :=
  ⟨["ISO-8859-1", "ISO8859-1", "ISO_8859-1", "ISO-LATIN-1", "LATIN1", "L1", "CP819", "IBM819",
    "ISO-IR-100", "CSISOLATIN1"], 0x100, ""⟩

def ascii : Encoding :=
  ofAscii ["ASCII", "US-ASCII", "US", "ISO646-US", "ISO-IR-6", "CP367", "IBM367", "CSASCII",
    "ANSI_X3.4-1968", "ANSI_X3.4-1986"]

def series : List Encoding :=
  [numbered "2" ["ISO-LATIN-2", "LATIN2", "L2", "ISO-IR-101", "CSISOLATIN2"] CodePage.latin2,
    numbered "3" ["LATIN3", "L3", "ISO-IR-109", "CSISOLATIN3"] CodePage.latin3,
    numbered "4" ["LATIN4", "L4", "ISO-IR-110", "CSISOLATIN4"] CodePage.latin4,
    numbered "5" ["CYRILLIC", "ISO-IR-144", "CSISOLATINCYRILLIC"] CodePage.latinCyrillic,
    numbered "6" ["ARABIC", "ASMO-708", "ECMA-114", "ISO-IR-127", "CSISOLATINARABIC"]
      CodePage.latinArabic,
    numbered "7" ["GREEK", "GREEK8", "ECMA-118", "ELOT_928", "ISO-IR-126", "CSISOLATINGREEK"]
      CodePage.latinGreek,
    numbered "8" ["HEBREW", "ISO-IR-138", "CSISOLATINHEBREW"] CodePage.latinHebrew,
    numbered "9" ["LATIN5", "L5", "ISO-IR-148", "CSISOLATIN5"] CodePage.latin5,
    numbered "10" ["LATIN6", "L6", "ISO-IR-157", "CSISOLATIN6"] CodePage.latin6,
    numbered "11" [] CodePage.latinThai,
    numbered "13" ["LATIN7", "L7", "ISO-IR-179"] CodePage.latin7,
    numbered "14" ["LATIN8", "L8", "ISO-CELTIC", "ISO-IR-199"] CodePage.latin8,
    numbered "15" ["LATIN-9", "ISO-IR-203"] CodePage.latin9,
    numbered "16" ["LATIN10", "L10", "ISO-IR-226"] CodePage.latin10]

def pages : List Encoding :=
  [ofPage ["CP1250", "WINDOWS-1250", "MS-EE"] CodePage.windows1250,
    ofPage ["CP1251", "WINDOWS-1251", "MS-CYRL"] CodePage.windows1251,
    ofPage ["CP1252", "WINDOWS-1252", "MS-ANSI"] CodePage.windows1252,
    ofPage ["CP1253", "WINDOWS-1253", "MS-GREEK"] CodePage.windows1253,
    ofPage ["CP1254", "WINDOWS-1254", "MS-TURK"] CodePage.windows1254,
    ofPage ["CP1255", "WINDOWS-1255", "MS-HEBR"] CodePage.windows1255,
    ofPage ["CP1256", "WINDOWS-1256", "MS-ARAB"] CodePage.windows1256,
    ofPage ["CP1257", "WINDOWS-1257", "WINBALTRIM"] CodePage.windows1257,
    ofPage ["CP1258", "WINDOWS-1258"] CodePage.windows1258,
    ofPage ["CP874", "WINDOWS-874"] CodePage.windows874,
    ofPage ["KOI8-R", "CSKOI8R"] CodePage.koi8Russian,
    ofPage ["KOI8-U"] CodePage.koi8Ukrainian,
    ofPage ["CP850", "IBM850", "850", "CSPC850MULTILINGUAL"] CodePage.ibm850,
    ofPage ["CP862", "IBM862", "862", "CSPC862LATINHEBREW"] CodePage.ibm862,
    ofPage ["CP866", "IBM866", "866", "CSIBM866"] CodePage.ibm866,
    ofPage ["MAC", "MACINTOSH", "MACROMAN", "CSMACINTOSH"] CodePage.macRoman,
    ofPage ["MACCYRILLIC"] CodePage.macCyrillic,
    ofPage ["SHIFT_JIS", "SHIFT-JIS", "SJIS", "MS_KANJI", "CSSHIFTJIS", "CP932", "JIS_X0201",
      "JISX0201-1976", "X0201", "CSHALFWIDTHKATAKANA"] CodePage.halfwidthKatakana,
    ⟨["TIS-620", "TIS620", "TIS620-0", "TIS620.2529-1", "TIS620.2533-0", "TIS620.2533-1",
      "ISO-IR-166"], 0x80, String.ofList (List.replicate 33 '\ufffd') ++ (CodePage.latinThai.drop 1).copy⟩]

/-- Encodings that write ASCII as it is and everything else in ways that are not read. -/
def others : List Encoding :=
  [ofAscii ["EUC-JP", "EUCJP", "ISO-2022-JP", "ISO-2022-JP-1", "ISO-2022-JP-2", "CSISO2022JP"],
    ofAscii ["EUC-CN", "EUCCN", "CN-GB", "GB2312", "CSGB2312", "GBK", "CP936", "MS936", "WINDOWS-936",
      "GB18030", "ISO-2022-CN", "ISO-2022-CN-EXT", "CSISO2022CN", "HZ", "HZ-GB-2312"],
    ofAscii ["EUC-TW", "EUCTW", "BIG5", "BIG-5", "BIG-FIVE", "BIGFIVE", "CN-BIG5", "CSBIG5", "CP950",
      "BIG5-HKSCS", "BIG5HKSCS"],
    ofAscii ["EUC-KR", "EUCKR", "CSEUCKR", "CP949", "UHC", "CP1361", "JOHAB", "ISO-2022-KR",
      "CSISO2022KR"],
    ofAscii ["KOI8-RU", "KOI8-T", "HP-ROMAN8", "ROMAN8", "R8", "CSHPROMAN8", "NEXTSTEP", "ARMSCII-8",
      "GEORGIAN-ACADEMY", "GEORGIAN-PS", "MACCENTRALEUROPE", "MACICELAND", "MACCROATIAN",
      "MACROMANIA", "MACUKRAINE", "MACGREEK", "MACTURKISH", "MACHEBREW", "MACARABIC", "MACTHAI",
      "PT154", "PTCP154", "CP154", "CYRILLIC-ASIAN", "CSPTCP154", "RK1048", "KZ-1048", "CSKZ1048",
      "STRK1048-2002", "MULELAO-1", "CP1133", "IBM-CP1133", "VISCII", "CSVISCII", "TCVN", "TCVN-5712",
      "CP1131"],
    ofAscii ["ISO646-JP", "JIS_C6220-1969-RO", "ISO-IR-14", "JP", "CSISO14JISC6220RO", "ISO646-CN",
      "GB_1988-80", "ISO-IR-57", "CN", "CSISO57GB1988", "UTF-7", "UNICODE-1-1-UTF-7", "CSUNICODE11UTF7",
      "C99", "JAVA"]]

def all : List Encoding := latin1 :: ascii :: series ++ pages ++ others

def named? (name : List Char) : Option Encoding :=
  let label := String.ofList (name.map Char.toUpper)
  all.find? fun encoding => encoding.names.contains label

def char? (encoding : Encoding) (upper : Array Char) (byte : Nat) : Option Char :=
  if byte < encoding.start then some (Char.ofNat byte)
  else upper[byte - encoding.start]?.filter (· != '\ufffd')

def decode (encoding : Encoding) (bytes : List UInt8) : Option (List Char) :=
  let upper := encoding.upper.toList.toArray
  bytes.mapM fun byte => encoding.char? upper byte.toNat

end Encoding

def isEncodingName : List Char → Bool
  | [] => false
  | c :: rest => c.isAlpha && rest.all fun c => c.isAlphanum || c == '.' || c == '_' || c == '-'

def reread (name text : List Char) : Option (List Char) :=
  let label := String.ofList (name.map Char.toUpper)
  if label == "UTF-8" || label == "UTF8" then some text
  else (Encoding.named? name).bind fun encoding =>
    encoding.decode (String.ofList text).toUTF8.toList

end TersePath.Xml
