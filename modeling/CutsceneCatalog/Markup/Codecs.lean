import CutsceneCatalog.Markup.Encoding

/-!
# A registry of codecs

Codecs for single-byte encodings that documents are declared in.  A name may be written in any
letter case, with hyphens or underscores between its words, and an encoding has several.
-/

namespace CutsceneCatalog
namespace Markup
namespace Codecs

/-- The words of a name, in lower case: a hyphen or underscore divides words, and there may be
several in a row. -/
def words : (word : List Char) → List Char → List (List Char)
  | word, [] => if word.isEmpty then [] else [word.reverse]
  | word, c :: rest =>
      if c == '-' || c == '_' then
        if word.isEmpty then words [] rest else word.reverse :: words [] rest
      else words (c.toLower :: word) rest

/-- The name of an encoding in the spelling of the registry: its words with underscores between
them. -/
def plainName (name : String) : String :=
  String.ofList (List.intercalate ['_'] (words [] name.toList))

/-- The characters with the numbers from `first` to below `bound`. -/
def charactersIn (first bound : Nat) : String :=
  String.ofList ((List.range' first (bound - first)).map Char.ofNat)

/-- Text for bytes that cannot be read. -/
def unread (count : Nat) : String := String.ofList (List.replicate count '\uFFFD')

/-- The encodings by their names, with the characters of the bytes from 128 on; the bytes below are
ASCII in all of them. -/
def pages : List (List String × String) :=
  [(["latin_1", "latin1", "latin", "l1", "iso8859_1", "iso_8859_1", "iso8859", "cp819", "ibm819",
      "csisolatin1", "iso_8859_1_1987", "iso_ir_100"], charactersIn 128 256),
    (["ascii", "us_ascii", "us", "ansi_x3.4_1968", "ansi_x3_4_1968", "ansi_x3.4_1986",
      "cp367", "csascii", "ibm367", "iso646_us", "iso_646.irv_1991", "iso_ir_6"], unread 128),
    -- Read byte by byte, nothing but ASCII is left of it.
    (["utf8", "utf_8", "utf", "u8", "cp65001", "utf8_ucs2", "utf8_ucs4", "utf_8_sig"], unread 128),
    (["cp1252", "windows_1252"], westEuropean),
    (["iso8859_15", "iso_8859_15", "l9", "latin9"], charactersIn 128 160 ++ latin9),
    (["koi8_r", "cskoi8r"], cyrillic),
    (["cp437", "ibm437", "cspc8codepage437"], boxes)]
where
  /-- The page `cp1252`. -/
  westEuropean : String :=
    "€\uFFFD‚ƒ„…†‡ˆ‰Š‹Œ\uFFFDŽ\uFFFD\uFFFD‘’“”•–—˜™š›œ\uFFFDžŸ" ++
    "\u00a0¡¢£¤¥¦§¨©ª«¬\u00ad®¯°±²³´µ¶·¸¹º»¼½¾¿" ++
    "ÀÁÂÃÄÅÆÇÈÉÊËÌÍÎÏÐÑÒÓÔÕÖ×ØÙÚÛÜÝÞß" ++
    "àáâãäåæçèéêëìíîïðñòóôõö÷øùúûüýþÿ"
  /-- The page `iso8859_15` from byte 160 on. -/
  latin9 : String :=
    "\u00a0¡¢£€¥Š§š©ª«¬\u00ad®¯°±²³Žµ¶·ž¹º»ŒœŸ¿" ++
    "ÀÁÂÃÄÅÆÇÈÉÊËÌÍÎÏÐÑÒÓÔÕÖ×ØÙÚÛÜÝÞß" ++
    "àáâãäåæçèéêëìíîïðñòóôõö÷øùúûüýþÿ"
  /-- The page `koi8_r`. -/
  cyrillic : String :=
    "─│┌┐└┘├┤┬┴┼▀▄█▌▐░▒▓⌠■∙√≈≤≥\u00a0⌡°²·÷" ++
    "═║╒ё╓╔╕╖╗╘╙╚╛╜╝╞╟╠╡Ё╢╣╤╥╦╧╨╩╪╫╬©" ++
    "юабцдефгхийклмнопярстужвьызшэщчъ" ++
    "ЮАБЦДЕФГХИЙКЛМНОПЯРСТУЖВЬЫЗШЭЩЧЪ"
  /-- The page `cp437`. -/
  boxes : String :=
    "ÇüéâäàåçêëèïîìÄÅÉæÆôöòûùÿÖÜ¢£¥₧ƒ" ++
    "áíóúñÑªº¿⌐¬½¼¡«»░▒▓│┤╡╢╖╕╣║╗╝╜╛┐" ++
    "└┴┬├─┼╞╟╚╔╩╦╠═╬╧╨╤╥╙╘╒╓╫╪┘┌█▄▌▐▀" ++
    "αßΓπΣσµτΦΘΩδ∞φε∩≡±≥≤⌠⌡÷≈°∙·√ⁿ²■\u00a0"

/-- Names of encodings in which some characters take several bytes. -/
def wideNames : List String :=
  ["utf_16", "utf16", "u16", "utf_16_le", "utf_16le", "utf_16_be", "utf_16be", "utf_32", "utf32",
    "u32", "utf_32_le", "utf_32le", "utf_32_be", "utf_32be", "utf_7", "utf7", "u7", "gbk", "cp936",
    "ms936", "gb2312", "chinese", "euc_cn", "euccn", "gb18030", "gb18030_2000", "big5", "big5_tw",
    "csbig5", "shift_jis", "shiftjis", "sjis", "s_jis", "csshiftjis", "cp932", "ms932", "euc_jp",
    "eucjp", "ujis", "u_jis", "euc_kr", "euckr", "korean", "cp949", "ms949", "uhc"]

/-- The registry of these encodings, which knows no other name. -/
def standard : Codecs := fun name =>
  match pages.find? fun (names, _) => names.contains (plainName name) with
  | some (_, upper) => .ok (charactersIn 0 128 ++ upper)
  | none => .error (if wideNames.contains (plainName name) then .notSingleByte else .unknown name)

end Codecs
end Markup
end CutsceneCatalog
