/-!
# Text

The reading of arbitrary octets as text: each longest run that starts a character without completing
one becomes one replacement character, and so does each octet that starts none. Between double
quotes the usual control characters have a short escape, and every other character that would not
show as itself is given by its code point.
-/

namespace GoCheck.Text

def replacement : Char := Char.ofNat 0xfffd

/-- The octets of a character, one to four of them. -/
def encodeChar (c : Char) : List UInt8 :=
  let n := c.toNat
  if n < 0x80 then [n.toUInt8]
  else if n < 0x800 then [(0xc0 + n / 64).toUInt8, (0x80 + n % 64).toUInt8]
  else if n < 0x10000 then
    [(0xe0 + n / 4096).toUInt8, (0x80 + n / 64 % 64).toUInt8, (0x80 + n % 64).toUInt8]
  else
    [(0xf0 + n / 262144).toUInt8, (0x80 + n / 4096 % 64).toUInt8, (0x80 + n / 64 % 64).toUInt8,
      (0x80 + n % 64).toUInt8]

/-- What a first octet promises: its bits, the range of the second, and how many follow that. -/
structure Lead where
  bits : Nat
  lo : Nat
  hi : Nat
  more : Nat

/-- The promise of a first octet. The range of the second excludes overlong forms and surrogates. -/
def lead? (b : Nat) : Option Lead :=
  if 0xc2 ≤ b ∧ b ≤ 0xdf then some ⟨b - 0xc0, 0x80, 0xbf, 0⟩
  else if b = 0xe0 then some ⟨0, 0xa0, 0xbf, 1⟩
  else if b = 0xed then some ⟨0xd, 0x80, 0x9f, 1⟩
  else if 0xe1 ≤ b ∧ b ≤ 0xef then some ⟨b - 0xe0, 0x80, 0xbf, 1⟩
  else if b = 0xf0 then some ⟨0, 0x90, 0xbf, 2⟩
  else if 0xf1 ≤ b ∧ b ≤ 0xf3 then some ⟨b - 0xf0, 0x80, 0xbf, 2⟩
  else if b = 0xf4 then some ⟨4, 0x80, 0x8f, 2⟩
  else none

/-- Where the reader stands: between characters, or inside one with its bits and what is to
follow. -/
inductive Reading where
  | between
  | inside (bits lo hi more : Nat)

/-- What an octet between characters yields, and where it leaves the reader. -/
def beginChar (n : Nat) : List Char × Reading :=
  if n < 0x80 then ([Char.ofNat n], .between)
  else match lead? n with
    | some l => ([], .inside l.bits l.lo l.hi l.more)
    | none => ([replacement], .between)

/-- One octet of the reading. One that does not fit ends a character with a replacement and starts
anew. -/
def Reading.step : Reading → Nat → List Char × Reading
  | .between, n => beginChar n
  | .inside bits lo hi more, n =>
    if lo ≤ n ∧ n ≤ hi then
      match more with
      | 0 => ([Char.ofNat (bits * 64 + (n - 0x80))], .between)
      | more + 1 => ([], .inside (bits * 64 + (n - 0x80)) 0x80 0xbf more)
    else (replacement :: (beginChar n).1, (beginChar n).2)

/-- The characters still to come. One that the end of the octets cuts off becomes a replacement. -/
def decodeFrom : Reading → List UInt8 → List Char
  | .between, [] => []
  | .inside .., [] => [replacement]
  | r, b :: rest => (r.step b.toNat).1 ++ decodeFrom (r.step b.toNat).2 rest

/-- Octets as text, with a replacement character for each ill-formed part. -/
def decodeLossy (octets : List UInt8) : String := String.ofList (decodeFrom .between octets)

/-! ## Quoted text -/

/-- A set of code points, by the lengths of the runs outside and inside of it in turn. -/
abbrev CodeRuns := List Nat

/-- Whether the code point `c` places after the beginning of the runs lies in the set. -/
def CodeRuns.contains : CodeRuns → Nat → Bool
  | outside :: inside :: rest, c =>
    if c < outside then false
    else if c - outside < inside then true
    else contains rest (c - outside - inside)
  | _, _ => false

/-- Reads the lengths of runs: the digits to the base 26, capital letters except for the last. -/
def CodeRuns.read (n : Nat) : List Char → CodeRuns
  | [] => []
  | c :: cs =>
    if c.isUpper then read (26 * n + (c.toNat - 'A'.toNat)) cs
    else if c.isLower then (26 * n + (c.toNat - 'a'.toNat)) :: read 0 cs
    else read n cs

def whiteSpaceRuns : CodeRuns :=
  .read 0 "jfsbDwbBabIHjbDPnlBdcfbBvbFXwb".toList

/-- Code points of control, format, private or no use, separators but the space, and ignorable
ones. -/
def nonPrintableRuns : CodeRuns :=
  .read 0 "aBgDrBimbZxbBocgehbbbubPhbBmcBycdbCdiBbegrwbHkbBwcChcDxoChcBxcpbBccbblfBghCxbGfbicccwbh
   bbdecjccceibecbfczcdbgeccwbhbcbcbccbbfeccddbhebbhrkdbjbdbwbhbcbfckbdbdcbpecmhhbdbicccwbhbcbfcjc
   ccdhdecbfcskcbgddbedcbbbcdcdddmefddbecbgbovfnbdbxbqcjbdbehcbdbcceckhwbdbxbkbfcjbdbehcfdbeckbdmn
   bdbBzbdbgeqcBabdbsdybjbbchdbegbbbigkcdmCgeBdBlcbbbfbybbbxcfbbbhbkceBgCubBkeBnbBkbpbnBlHqbbfbcFn
   cIybechbbbecBpbecBhbechbbbecpbCfbecCpcBgdBagDicgcYqbBcdDlhwjyjumnbdbcmCacBockgkglfkgDlhBrfCskBf
   bmemebdBqcflBseBagldCkcCnbBdclgkgocBucmuCzbGkiCidpdCkfBrcliBrfUocgcBmcgcibbbbbbbBfcCbbpbocgbtcd
   bjryiBvrccBbbndBioBhpFkeZqwlvCRscOsfBtbbfbcCehcoyjhbhbhbhbhbhbhbhbEwBiBabDlmIgBaqbClbDicDzfBrbB
   zbBqbDijBwbBRIrdCdjNkuHciInuCidkgCeiCsimgEmlBedDableBhbCdjockcDzyBckgcgcgjhbhbCieEwckgQNsmxeBxM
   NcOccEcBmhmffBabfbbbcbcbZaBgqqkgBzbtbeefbFfeGdbBedgcgcgcddhbhnccmbBabtbcbpcoBiEtfdeBtdDkbndbBvB
   uFaBddBxpBceBkjBefBrfBebBleoBqGcckgBkeBkeBoiCalmbpbhbcblbpbhbcdCamLzjwkiygbBqbjCrgcbbBsbcdbcxbC
   uijBwtbcfBhdBbfBbBmCeeucBybcfibdbBdcdekhjhCmBgBnemjCcdBdcBbfBahemhDcCvCdBznBzhBuikgBmdBdicIaBfb
   BqbdccqgijBhBuiBqwBaBmBcuxjDaeBkjCkbfnzhkgCbbsiBnjDsbulsbBvCkhbbbebpblgChfkgebicccwbhbcbfbkcccd
   cbgbfhchdflkbbcbbBmbkbbcbbebkbcicBdDobfBeCuikGkCccBmBiCrlkgntCggkguBcBbcpexHdCiDwDfmicbcibcbBeb
   ccmjkCsicBuclBbCuiDfnCvhkDiiDkBiokgjbBtbokBddBgcwboCvhbcbBsdbbcbjikggbcbBlbcbghkgBsekJmzhrbBpdB
   dDhbpBynBJnDyEhbflHoDXkDvnBPgqwkFXrfWlKDdCgCOsVxhBfbkeDdbkgBecgkCskkbhbvftQqCgHqDnfzczBsCxeCfhr
   CmflhjKXyBpBgDtElMWrebhbcbLfpbBddcboeiPgDKuEdfndjhkceFVkJtdQugxprpBucxjEmCiJmkBncCwiEivCsEsumum
   DjjzFfDhbCtbccbcccebmbbbhbCnbecibhbBcbebfbbdhbNccLgcBBapfbpBQmBfggIfhbrchbcbffCkBhbEiBtdockecMi
   BfrCgfbRwBqIgBrebHkBfbwicIqhbebcbpbHpcqBpCyekecBEfCqCyCjHmebBbbcbbcbbkbebbbbgbebbbbbbdbcbbcbbbb
   bbbbbbcbbcebhbebebbbkbrfdbfbrCacKkBseDwmpcpbpbBlkGsCeBdnBsejhcogFyBLxdrdndIkgmebpmeCeikgBoiBecm
   ecojBnNgiocndldCfbbeqcmekhFrbDzBNpCLFcBgGMocIOccLBlpXyDQwUwCFyHHzfMOoBZLJy".toList

/-- Code points of the marks that extend a grapheme. -/
def extendingMarkRuns : CodeRuns :=
  .read 0 "BDoEiKphKdBtbbbcbcbbCulBwvqbDxhcgccbeBjbBeBbDnlCgjjbyebjbdbfBrdChjBqybBgCdbbbeiebdhkcBd
   bCgbbbceibjbkcBabccCfbececcddbBecdblcCfbefbcebucwgbbCgbbcbeibhdkcBebChbbbmbjbBobdbCdbbdfdbehclc
   BdbCgbccbbddbehclcBccCfcbbceibjbkcBdbCubebcdbbibDdbchmiDubcjlhCvcBbbbbbbCdobfbcflbBkjbDyebgbccc
   zcedqenbccgbpbBBbdBKkeBcdBdcBecCmcbhibcljbBtdbbEncBibEodecjbgdIlccbCgbbhbbbbcigkcbBwBucmueBwked
   BmjmcBgecgCebbcdbbfCeiccFwdbnbhebgbdcHqCmBBsBhEOcdFlbDsBgVigEbcBSQeebkBgcDccKmbdbebzcfbFvcBasnb
   BmizlbbBsdBwbcecccbBkbCpgccccmbibBvbBzbbdccfcbbBqcibJebcbebBDZsbBCjqqqBLlbIsbFtfCMgdbcfeBodebGj
   cWbeCnfMfcCzgCslBxeEtbCcpBpbcckdBxecchbCjdBkfbiCkbmcCajbbiecbDrdcegbcbGbbdivcCfcbbbbmbjbohdfCpb
   cgbbcbbdedbbocDhicdbbxbDdbcgbbcbbcbcJbbcegcbcBbcDhicbbcEcbbbciDxbbbcebfJzjbcJlbkeebFoeccebBgkBo
   gceibjgcdBunbcHqbbdbbHthbgbbDewchbcbcEsgdbbcbhbbCucdbbbNjclcCaffdxbHXtbgpQYymddDSafChhBOibCleDd
   blcBDAxcGYzBucxUwfdgiichBeeFsdCYdCdeByibobwfbpCAihbrchbcbfDwbGehOlbCjeToeJucJjbcbhcfbSghEfhBTCI
   vJg".toList

def isWhiteSpace (c : Char) : Bool := whiteSpaceRuns.contains c.toNat

/-- A character that shows as itself. -/
def isPrintable (c : Char) : Bool := !nonPrintableRuns.contains c.toNat

def isExtendingMark (c : Char) : Bool := extendingMarkRuns.contains c.toNat

def trimWhiteSpace (s : String) : String :=
  String.ofList ((s.toList.dropWhile isWhiteSpace).reverse.dropWhile isWhiteSpace).reverse

/-! ## Quotes -/

def hexDigits (n : Nat) : List Char := Nat.toDigits 16 n

/-- A character by its code point, such as `\u{301}`. -/
def escapeCodePoint (c : Char) : List Char :=
  ['\\', 'u', '\x7b'] ++ hexDigits c.toNat ++ ['\x7d']

def escapeChar (c : Char) : List Char :=
  if c = Char.ofNat 0 then ['\\', '0']
  else if c = '\t' then ['\\', 't']
  else if c = '\r' then ['\\', 'r']
  else if c = '\n' then ['\\', 'n']
  else if c = '"' then ['\\', '"']
  else if c = '\\' then ['\\', '\\']
  else if isExtendingMark c then escapeCodePoint c
  else if isPrintable c then [c]
  else escapeCodePoint c

def quoteChars (s : List Char) : List Char := '"' :: (s.flatMap escapeChar ++ ['"'])

def quote (s : String) : String := String.ofList (quoteChars s.toList)

/-- A quoted text of at most `limit` characters; a longer one ends in three dots. -/
def quoteWithin (limit : Nat) (s : String) : String :=
  let quoted := quoteChars s.toList
  if quoted.length ≤ limit then String.ofList quoted
  else String.ofList (quoted.take (limit - 3) ++ ['.', '.', '.'])

end GoCheck.Text
