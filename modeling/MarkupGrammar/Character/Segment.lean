import MarkupGrammar.Character.Property

/-! # Breaks between characters

Three divisions of the characters by what they do at breaks in a text: breaks between graphemes,
between words and between sentences. -/

namespace MarkupGrammar.Character

/-! ## Graphemes -/

/-- Vowel signs that do not keep to the character before them. -/
def detachedMark : CharSet :=
  .ofText "102B-102C 1038 1062-1064 1067-106D 1083 1087-108C 108F 109A-109C 1A61 1A63-1A64 AA7B
    AA7D 11720-11721"

/-- Consonants written before the characters that they belong to. -/
def prependedConsonant : CharSet :=
  .ofText "D4E 111C2-111C3 113D1 1193F 11941 11A3A 11A84-11A89 11D46 11F02"

/-- The classes of characters at breaks between graphemes, by name. -/
def graphemeBreaks : List (List String × CharSet) :=
  let carriageReturn : CharSet := .ofText "D"
  let lineFeed : CharSet := .ofText "A"
  let joiner : CharSet := .ofText "200D"
  let extend := graphemeExtend.union emojiModifier
  let reserved := defaultIgnorable.inter unassigned
  let controls := (CharSet.unions [lineSeparator, paragraphSeparator, control, format,
    reserved]).minus (.unions [carriageReturn, lineFeed, joiner, extend, prependedMark])
  let spacing := (spacingMark.union (.ofText "E33 EB3")).minus (extend.union detachedMark)
  let syllable : CharSet := .ofText "AC00-D788/1C"
  let closedSyllable := (CharSet.ofText "AC00-D7A3").minus syllable
  [(["cn", "control"], controls), (["cr"], carriageReturn), (["ex", "extend"], extend),
   (["l"], .ofText "1100-115F A960-A97C"), (["lf"], lineFeed), (["lv"], syllable),
   (["lvt"], closedSyllable), (["pp", "prepend"], prependedMark.union prependedConsonant),
   (["ri", "regionalindicator"], regionalIndicator), (["sm", "spacingmark"], spacing),
   (["t"], .ofText "11A8-11FF D7CB-D7FB"),
   (["v"], .ofText "1160-11A7 16D63 16D67-16D6A D7B0-D7C6"), (["zwj"], joiner)]

/-! ## Words -/

/-- Hebrew letters. -/
def hebrewLetter : CharSet :=
  .ofText "5D0-5EA 5EF-5F2 FB1D FB1F-FB28 FB2A-FB36 FB38-FB3C FB3E FB40-FB41 FB43-FB44 FB46-FB4F"

/-- Katakana and their marks. -/
def katakana : CharSet :=
  .ofText "3031-3035 309B-309C 30A0-30FA 30FC-30FF 31F0-31FF 32D0-32FE 3300-3357 FF66-FF9D
    1AFF0-1AFF3 1AFF5-1AFFB 1AFFD-1AFFE 1B000 1B120-1B122 1B155 1B164-1B167"

/-- Alphabetic characters of scripts that put no blanks between words. -/
def unspacedLetter : CharSet := .ofText "
  E01-E30 E32-E33 E40-E46 E81-E82 E84 E86-E8A E8C-EA3 EA5 EA7-EB0 EB2-EB3 EBD EC0-EC4 EC6 EDC-EDF
  1000-102A 103F 1050-1055 105A-105D 1061 1065-1066 106E-1070 1075-1081 108E 1780-17B3 17D7 17DC
  1950-196D 1970-1974 1980-19AB 19B0-19C9 1A20-1A54 1AA7 3041-3096 309D-309F A9E0-A9E4 A9E6-A9EF
  A9FA-A9FE AA60-AA76 AA7A AA7E-AAAF AAB1 AAB5-AAB6 AAB9-AABD AAC0 AAC2 AADB-AADD 11700-1171A
  11740-11746 1B001-1B11F 1B132 1B150-1B152"

/-- Symbols that count as letters inside words. -/
def letterlikeSymbol : CharSet :=
  .ofText "2C2-2C5 2D2-2D7 2DE-2DF 2E5-2EB 2ED 2EF-2FF 55A-55C 55E 58A 5F3 A708-A716 A720-A721
    A789-A78A AB5B"

/-- Characters that extend the one before them at breaks between words. -/
def wordExtend : CharSet := (CharSet.unions [graphemeExtend, spacingMark, emojiModifier]).minus
  (.ofText "200D")

/-- The classes of characters at breaks between words, by name. -/
def wordBreaks : List (List String × CharSet) :=
  let joiner : CharSet := .ofText "200D"
  let letters := (alphabetic.minus (.unions [ideographic, katakana, hebrewLetter, wordExtend,
    unspacedLetter])).union letterlikeSymbol
  let formats := format.minus (.unions [.ofText "200B-200D", wordExtend, prependedMark])
  let numeric := decimalNumber.union
    (.ofText "600-605 66B 6DD 890-891 8E2 110BD 110CD")
  [(["cr"], .ofText "D"), (["dq", "doublequote"], .ofText "22"),
   (["ex", "extendnumlet"], .ofText "5F 202F 203F-2040 2054 FE33-FE34 FE4D-FE4F FF3F"),
   (["extend"], wordExtend), (["fo", "format"], formats),
   (["hl", "hebrewletter"], hebrewLetter), (["ka", "katakana"], katakana),
   (["le", "aletter"], letters), (["lf"], .ofText "A"),
   (["mb", "midnumlet"], .ofText "2E 2018-2019 2024 FE52 FF07 FF0E"),
   (["ml", "midletter"], .ofText "3A B7 387 55F 5F4 2027 FE13 FE55 FF1A"),
   (["mn", "midnum"], .ofText "2C 3B 37E 589 60C-60D 66C 7F8 2044 FE10 FE14 FE50 FE54 FF0C FF1B"),
   (["nl", "newline"], .ofText "B-C 85 2028-2029"), (["nu", "numeric"], numeric),
   (["ri", "regionalindicator"], regionalIndicator), (["sq", "singlequote"], .ofText "27"),
   (["wsegspace"], .ofText "20 1680 2000-2006 2008-200A 205F 3000"), (["zwj"], joiner)]

/-! ## Sentences -/

/-- The classes of characters at breaks between sentences, by name. -/
def sentenceBreaks : List (List String × CharSet) :=
  let extend := graphemeExtend.union (spacingMark.union joinControl)
  let stop : CharSet := .ofText "2E 2024 FE52 FF0E"
  let separators : CharSet := .ofText "85 2028-2029"
  let lower := (lowercase.minus graphemeExtend).minus (.ofText "10D0-10FA 10FD-10FF")
  let upper := (titlecaseLetter.union uppercase).minus (.ofText "1C90-1CBA 1CBD-1CBF")
  let letters := (alphabetic.union (.ofText "5F3")).minus (.unions [lower, upper, extend])
  let brackets := ((CharSet.unions [openPunctuation, closePunctuation, initialPunctuation,
    finalPunctuation, quotationMark]).minus (.ofText "FF02 FF07")).union
      (.ofText "275B-2760 2E00-2E01 2E06-2E08 2E0B 1F676-1F678")
  let numeric := decimalNumber.union
    (.ofText "600-605 66B-66C 6DD 890-891 8E2 110BD 110CD")
  [(["at", "aterm"], stop), (["cl", "close"], brackets), (["cr"], .ofText "D"),
   (["ex", "extend"], extend),
   (["fo", "format"], format.minus (.unions [.ofText "200C-200D", extend, prependedMark])),
   (["le", "oletter"], letters), (["lf"], .ofText "A"), (["lo", "lower"], lower),
   (["nu", "numeric"], numeric),
   (["sc", "scontinue"], .ofText "2C-2D 3A-3B 37E 55D 60C-60D 7F8 1802 1808 2013-2014 3001
     FE10-FE11 FE13-FE14 FE31-FE32 FE50-FE51 FE54-FE55 FE58 FE63 FF0C-FF0D FF1A-FF1B FF64"),
   (["se", "sep"], separators),
   (["sp"], whiteSpace.minus (.ofText "A D 85 2028-2029")),
   (["st", "sterm"], sentenceTerminal.minus stop), (["up", "upper"], upper)]

end MarkupGrammar.Character
