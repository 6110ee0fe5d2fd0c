/-!
# Names of character properties

The names by which a pattern may ask for a class of characters: general categories, scripts, properties that a
character has or has not, and values of properties that have several. Names are compared in lower case, without
blanks, hyphens and low lines, and without a leading "is".
-/

namespace DocComment

namespace PropertyName

/-- The general categories, and the classes of all characters, of those in use, and of the first 128. -/
def categories : List String :=
  ["any", "ascii", "assigned", "c", "casedletter", "cc", "cf", "closepunctuation", "cn", "cntrl", "co",
    "combiningmark", "connectorpunctuation", "control", "currencysymbol", "dashpunctuation",
    "decimalnumber", "digit", "enclosingmark", "finalpunctuation", "format", "initialpunctuation", "l",
    "lc", "letter", "letternumber", "lineseparator", "ll", "lm", "lo", "lowercaseletter", "lt", "lu", "m",
    "mark", "mathsymbol", "mc", "me", "mn", "modifierletter", "modifiersymbol", "n", "nd", "nl", "no",
    "nonspacingmark", "number", "openpunctuation", "other", "otherletter", "othernumber",
    "otherpunctuation", "othersymbol", "p", "paragraphseparator", "pc", "pd", "pe", "pf", "pi", "po",
    "privateuse", "ps", "punct", "punctuation", "s", "sc", "separator", "sk", "sm", "so", "spaceseparator",
    "spacingmark", "symbol", "titlecaseletter", "unassigned", "uppercaseletter", "z", "zl", "zp", "zs"]

def scripts : List String :=
  ["adlam", "adlm", "aghb", "ahom", "anatolianhieroglyphs", "arab", "arabic", "armenian", "armi", "armn",
    "avestan", "avst", "bali", "balinese", "bamu", "bamum", "bass", "bassavah", "batak", "batk", "beng",
    "bengali", "bhaiksuki", "bhks", "bopo", "bopomofo", "brah", "brahmi", "brai", "braille", "bugi",
    "buginese", "buhd", "buhid", "cakm", "canadianaboriginal", "cans", "cari", "carian",
    "caucasianalbanian", "chakma", "cham", "cher", "cherokee", "chorasmian", "chrs", "common", "copt",
    "coptic", "cpmn", "cprt", "cuneiform", "cypriot", "cyprominoan", "cyrillic", "cyrl", "deseret", "deva",
    "devanagari", "diak", "divesakuru", "dogr", "dogra", "dsrt", "dupl", "duployan", "egyp",
    "egyptianhieroglyphs", "elba", "elbasan", "elym", "elymaic", "ethi", "ethiopic", "gara", "garay",
    "geor", "georgian", "glag", "glagolitic", "gong", "gonm", "goth", "gothic", "gran", "grantha", "greek",
    "grek", "gujarati", "gujr", "gukh", "gunjalagondi", "gurmukhi", "guru", "gurungkhema", "han", "hang",
    "hangul", "hani", "hanifirohingya", "hano", "hanunoo", "hatr", "hatran", "hebr", "hebrew", "hira",
    "hiragana", "hluw", "hmng", "hmnp", "hung", "imperialaramaic", "inherited", "inscriptionalpahlavi",
    "inscriptionalparthian", "ital", "java", "javanese", "kaithi", "kali", "kana", "kannada", "katakana",
    "kawi", "kayahli", "khar", "kharoshthi", "khitansmallscript", "khmer", "khmr", "khoj", "khojki",
    "khudawadi", "kiratrai", "kits", "knda", "krai", "kthi", "lana", "lao", "laoo", "latin", "latn", "lepc",
    "lepcha", "limb", "limbu", "lina", "linb", "lineara", "linearb", "lisu", "lyci", "lycian", "lydi",
    "lydian", "mahajani", "mahj", "maka", "makasar", "malayalam", "mand", "mandaic", "mani", "manichaean",
    "marc", "marchen", "masaramgondi", "medefaidrin", "medf", "meeteimayek", "mend", "mendekikakui", "merc",
    "mero", "meroiticcursive", "meroitichieroglyphs", "miao", "mlym", "modi", "mong", "mongolian", "mro",
    "mroo", "mtei", "mult", "multani", "myanmar", "mymr", "nabataean", "nagm", "nagmundari", "nand",
    "nandinagari", "narb", "nbat", "newa", "newtailue", "nko", "nkoo", "nshu", "nushu",
    "nyiakengpuachuehmong", "ogam", "ogham", "olchiki", "olck", "oldhungarian", "olditalic",
    "oldnortharabian", "oldpermic", "oldpersian", "oldsogdian", "oldsoutharabian", "oldturkic", "olduyghur",
    "olonal", "onao", "oriya", "orkh", "orya", "osage", "osge", "osma", "osmanya", "ougr", "pahawhhmong",
    "palm", "palmyrene", "pauc", "paucinhau", "perm", "phag", "phagspa", "phli", "phlp", "phnx",
    "phoenician", "plrd", "prti", "psalterpahlavi", "qaac", "qaai", "rejang", "rjng", "rohg", "runic",
    "runr", "samaritan", "samr", "sarb", "saur", "saurashtra", "sgnw", "sharada", "shavian", "shaw", "shrd",
    "sidd", "siddham", "signwriting", "sind", "sinh", "sinhala", "sogd", "sogdian", "sogo", "sora",
    "sorasompeng", "soyo", "soyombo", "sund", "sundanese", "sunu", "sunuwar", "sylo", "sylotinagri", "syrc",
    "syriac", "tagalog", "tagb", "tagbanwa", "taile", "taitham", "taiviet", "takr", "takri", "tale", "talu",
    "tamil", "taml", "tang", "tangsa", "tangut", "tavt", "telu", "telugu", "tfng", "tglg", "thaa", "thaana",
    "thai", "tibetan", "tibt", "tifinagh", "tirh", "tirhuta", "tnsa", "todhri", "todr", "toto",
    "tulutigalari", "tutg", "ugar", "ugaritic", "vai", "vaii", "vith", "vithkuqi", "wancho", "wara",
    "warangciti", "wcho", "xpeo", "xsux", "yezi", "yezidi", "yi", "yiii", "zanabazarsquare", "zanb", "zinh",
    "zyyy"]

/-- The properties that a character has or has not. -/
def properties : List String :=
  ["ahex", "alpha", "alphabetic", "asciihexdigit", "bidic", "bidicontrol", "bidim", "bidimirrored", "cased",
    "caseignorable", "changeswhencasefolded", "changeswhencasemapped", "changeswhenlowercased",
    "changeswhentitlecased", "changeswhenuppercased", "ci", "cwcf", "cwcm", "cwl", "cwt", "cwu", "dash",
    "defaultignorablecodepoint", "dep", "deprecated", "di", "dia", "diacritic", "ebase", "ecomp", "emod",
    "emoji", "emojicomponent", "emojimodifier", "emojimodifierbase", "emojipresentation", "epres", "ext",
    "extendedpictographic", "extender", "extpict", "graphemebase", "graphemeextend", "graphemelink",
    "grbase", "grext", "grlink", "hex", "hexdigit", "hyphen", "idc", "idcompatmathcontinue",
    "idcompatmathstart", "idcontinue", "ideo", "ideographic", "ids", "idsb", "idsbinaryoperator", "idst",
    "idstart", "idstrinaryoperator", "idsu", "idsunaryoperator", "joinc", "joincontrol", "loe",
    "logicalorderexception", "lower", "lowercase", "math", "mcm", "modifiercombiningmark", "nchar",
    "noncharactercodepoint", "oalpha", "odi", "ogrext", "oidc", "oids", "olower", "omath",
    "otheralphabetic", "otherdefaultignorablecodepoint", "othergraphemeextend", "otheridcontinue",
    "otheridstart", "otherlowercase", "othermath", "otheruppercase", "oupper", "patsyn", "patternsyntax",
    "patternwhitespace", "patws", "pcm", "prependedconcatenationmark", "qmark", "quotationmark", "radical",
    "regionalindicator", "ri", "sd", "sentenceterminal", "softdotted", "space", "sterm", "term",
    "terminalpunctuation", "uideo", "unifiedideograph", "upper", "uppercase", "variationselector", "vs",
    "whitespace", "wspace", "xidc", "xidcontinue", "xids", "xidstart"]

/-- The ages: the versions in which characters came into use, with the names of their values. -/
def ages : List String :=
  let versions :=
    ["1.1", "10.0", "11.0", "12.0", "12.1", "13.0", "14.0", "15.0", "15.1", "16.0", "2.0", "2.1", "3.0",
      "3.1", "3.2", "4.0", "4.1", "5.0", "5.1", "5.2", "6.0", "6.1", "6.2", "6.3", "7.0", "8.0", "9.0"]
  versions ++ versions.map fun v => "v" ++ String.ofList (v.toList.filter (· != '.'))

def clusterBreaks : List String :=
  ["cn", "control", "cr", "ex", "extend", "l", "lf", "lv", "lvt", "pp", "prepend", "regionalindicator",
    "ri", "sm", "spacingmark", "t", "v", "zwj"]

def sentenceBreaks : List String :=
  ["at", "aterm", "cl", "close", "cr", "ex", "extend", "fo", "format", "le", "lf", "lo", "lower", "nu",
    "numeric", "oletter", "sc", "scontinue", "se", "sep", "sp", "st", "sterm", "up", "upper"]

def wordBreaks : List String :=
  ["aletter", "cr", "doublequote", "dq", "ex", "extend", "extendnumlet", "fo", "format", "hebrewletter",
    "hl", "ka", "katakana", "le", "lf", "mb", "midletter", "midnum", "midnumlet", "ml", "mn", "newline",
    "nl", "nu", "numeric", "regionalindicator", "ri", "singlequote", "sq", "wsegspace", "zwj"]

/-- The properties that have several values, each by its names. -/
def valued : List (List String × List String) :=
  [(["gc", "generalcategory"], categories), (["sc", "script", "scx", "scriptextensions"], scripts),
    (["age"], ages), (["gcb", "graphemeclusterbreak"], clusterBreaks), (["sb", "sentencebreak"], sentenceBreaks),
    (["wb", "wordbreak"], wordBreaks)]

def isLed (name : List Char) : Bool := ((name.take 2).map Char.toLower) == ['i', 's']

/-- A name in the form in which names are compared. The name "isc" keeps what leads it, for without it the name
would be that of another property. -/
def normal (name : List Char) : String :=
  let led := isLed name
  let letters := ((if led then name.drop 2 else name).filter fun c =>
    c.toNat < 128 && !(c == ' ' || c == '-' || c == '_')).map Char.toLower
  if led && letters == ['c'] then "isc" else String.ofList letters

def isKnown (name : List Char) : Bool :=
  let n := normal name
  categories.contains n || scripts.contains n || properties.contains n

def isKnownValue (property value : List Char) : Bool :=
  valued.any fun (names, values) => names.contains (normal property) && values.contains (normal value)

/-- Whether a property holds of ASCII characters alone. -/
def isAscii (name : List Char) : Bool := ["ascii", "ahex", "asciihexdigit"].contains (normal name)

end PropertyName

end DocComment
