import MarkupGrammar.Character.Property

/-! # Direction of writing

Which characters are written from right to left, which from left to right, and which follow the
characters around them; and which letters of a cursive script are joined to the letter before them
or behind them. The tables have the characters that names of hosts can hold; characters in no table
are written from left to right and are not joined. -/

namespace MarkupGrammar.Character

/-! ## Directions -/

/-- What the direction of a character is. -/
inductive Direction where
  | leftToRight
  | rightToLeft
  /-- A digit that is written from left to right in any text. -/
  | digit
  /-- A digit that is used in texts from right to left. -/
  | foreignDigit
  /-- A mark, which follows its letter. -/
  | mark
  /-- Any other character, which follows the text around it. -/
  | neutral
  deriving DecidableEq, Repr, Inhabited

/-- Characters written from right to left. -/
def rightToLeft : CharSet := .ofText "
  5BE 5C0-5C6/3 5D0-5EA 5EF-5F4 608 60B 60D 61B 61D-64A 66D-66F 671-674 679-6D5 6E5-6E6 6EE-6EF
  6FA-70D 710 712-72F 74D-7A5 7B1 7C0-7EA 7F4-7F5 7FA 7FE-815 81A 824 828 830-83E 840-858 85E
  860-86A 870-88F 897 8A0-8C9 FBB2-FBD2 FD90-FD91 FDC8-FDCE FE73 10800-10805 10808 1080A-10835
  10837-10838 1083C 1083F-10855 10857-1089E 108A7-108AF 108E0-108F2 108F4-108F5 108FB-1091B
  10920-10939 1093F-10959 10980-109B7 109BC-109CF 109D2-10A00 10A10-10A13 10A15-10A17 10A19-10A35
  10A40-10A48 10A50-10A58 10A60-10A9F 10AC0-10AE4 10AEB-10AF6 10B00-10B35 10B40-10B55 10B58-10B72
  10B78-10B91 10B99-10B9C 10BA9-10BAF 10C00-10C48 10CC0-10CF2 10CFA-10D23 10D4A-10D4F 10D69-10D85
  10D8E-10D8F 10E80-10EA9 10EAD 10EB0-10EB1 10EC2-10EC7 10ED0-10ED8 10EFA-10EFC 10F00-10F27
  10F30-10F45 10F51-10F59 10F70-10F81 10F86-10F89 10FB0-10FCB 10FE0-10FF6 1E800-1E8C4 1E8C7-1E8CF
  1E922-1E943 1E94B 1E950-1E959 1E95E-1E95F 1EC71-1ECB4 1ED01-1ED3D"

/-- Digits that are written from left to right in any text. -/
def plainDigit : CharSet := .ofText "30-39 6F0-6F9 102E1-102FB"

/-- Digits and signs that are used with them in texts from right to left. -/
def foreignDigit : CharSet := .ofText "660-669 66B-66C 10D30-10D39 10D40-10D49 10E60-10E7E"

/-- Marks, which follow their letter. -/
def attachedMark : CharSet :=
  (nonspacingMark.union enclosingMark).minus (.ofText "CBF CC6 11A07-11A08 11C3F")

/-- Signs and symbols, which follow the text around them. -/
def neutral : CharSet := .ofText "
  21-2F 3A-40 5B-60 7B-7E A1-A7 A9 AB-AC AE B0-B1 B6-B7 BB BF D7 F7 2B9-2BA 2C2-2CF 2D2-2D7 2DE-2DF
  2E5-2ED 2EF-2FF 375 3F6 58A 58D-58F 606-607 609-60A 60C 60E-60F 66A 6DE 6E9 7F6-7F9 9F2-9F3 9FB
  AF1 BF3-BFA C78-C7E E3F F3A-F3D 1390-1399 1400 169B-169C 17DB 17F0-17F9 1800-180A 1940 1944-1945
  19DE-19FF 200C-200D 2010 2012-2016 2018-2023 2027 2030-2032 2035 2038-203B 203D 203F-2046
  204A-2056 2058-205E 20A0-20A7 20A9-20C1 2104 2108 2114 2117-2118 211E-211F 2123-2129/2 212E 213A
  2141-2144 214A-214D 218A-218B 2190-222B 222E 2231-2328 232B-2335 237B-2394 2396-2426 2440-244A
  24EB-26AB 26AD-27FF 2900-2A0B 2A0D-2A73 2A77-2ADB 2ADD-2B73 2B76-2B95 2B97-2BFF 2CE5-2CEA
  2CF9-2CFF 2E00-2E5D 2E80-2E99 2E9B-2E9E 2EA0-2EF2 3001 3003-3004 3008-3020 3030 3037 303D-303F
  30A0 30FB 31C0-31E3 4DC0-4DFF A490-A4C6 A60D-A60F A673 A67E-A67F A700-A721 A788 A828-A82B
  A838-A839 A874-A877 AB6A-AB6B FD3E-FD4F FDCF FDFD-FDFF FE45-FE46 10101 10140-1018C 10190-1019C
  101A0 1091F 10B39-10B3F 11052-11065 11660-1166C 11FD5-11FF1 16FE2 1D1E9-1D1EA 1D200-1D241 1D245
  1D300-1D356 1E2FF 1EEF0-1EEF1 1F000-1F02B 1F030-1F093 1F0A0-1F0AE 1F0B1-1F0BF 1F0C1-1F0CF
  1F0D1-1F0F5 1F10B-1F10F 1F12F 1F16D-1F16F 1F1AD 1F260-1F265 1F300-1F6D7 1F6DC-1F6EC 1F6F0-1F6FC
  1F700-1F776 1F77B-1F7D9 1F7E0-1F7EB 1F7F0 1F800-1F80B 1F810-1F847 1F850-1F859 1F860-1F887
  1F890-1F8AD 1F8B0-1F8B1 1F900-1FA53 1FA60-1FA6D 1FA70-1FA7C 1FA80-1FA88 1FA90-1FABD 1FABF-1FAC5
  1FACE-1FADB 1FAE0-1FAE8 1FAF0-1FAF8 1FB00-1FB92 1FB94-1FBCA"

/-- The direction of a character. -/
def direction (c : Char) : Direction :=
  if rightToLeft.contains c then .rightToLeft
  else if plainDigit.contains c then .digit
  else if foreignDigit.contains c then .foreignDigit
  else if attachedMark.contains c then .mark
  else if neutral.contains c then .neutral
  else .leftToRight

/-! ## Joined letters -/

/-- Letters that are joined to the letter behind them. -/
def joinsNext : CharSet := .ofText "
  620 626 628 62A-62E 633-63F 641-647 649-64A 66E-66F 678-687 69A-6BF 6C1-6C2 6CC 6CE 6D0-6D1
  6FA-6FC 6FF 712-714 71A-71D 71F-727 729 72B 72D-72E 74E-758 75C-76A 76D-770 772 775-777 77A-77F
  7CA-7EA 841-845 848 84A-853 855 860 862-865 868 886 889-88D 88F 8A0-8A9 8AF-8B0 8B3-8B8 8BA-8C8
  1807 1820-1878 1887-18A8 18AA A840-A872 10AC0-10AC4 10ACD 10AD3-10ADC 10ADE-10AE0 10AEB-10AEE
  10B80 10B82 10B86-10B88 10B8A-10B8B 10B8D 10B90 10BAD-10BAE 10D00-10D21 10D23 10EC3-10EC4
  10EC6-10EC7 10F30-10F32 10F34-10F44 10F51-10F53 10F70-10F73 10F76-10F81 10FB0 10FB2-10FB3 10FB8
  10FBB-10FBC 10FBE-10FBF 10FC1 10FC4 10FCA-10FCB 1E900-1E943"

/-- Letters that are joined to the letter before them. -/
def joinsPrevious : CharSet := .ofText "
  620 622-63F 641-64A 66E-66F 671-673 675-6D3 6D5 6EE-6EF 6FA-6FC 6FF 710 712-72F 74D-77F 7CA-7EA
  840-858 860 862-865 867-86A 870-882 886 889-88F 8A0-8AC 8AE-8C8 1807 1820-1878 1887-18A8 18AA
  A840-A871 10AC0-10AC5 10AC7 10AC9-10ACA 10ACE-10AD6 10AD8-10AE1 10AE4 10AEB-10AEF 10B80-10B91
  10BA9-10BAE 10D01-10D23 10EC2-10EC4 10EC6-10EC7 10F30-10F44 10F51-10F54 10F70-10F81 10FB0
  10FB2-10FB6 10FB8-10FBF 10FC1-10FC4 10FC9-10FCA 1E900-1E943"

/-- Characters that letters are joined across. -/
def transparent : CharSet :=
  let solid : CharSet := .ofText "600-605 6DD 890-891 8E2 180E 200C-200D 2066-2069 110BD 110CD
    1171E"
  let further : CharSet := .ofText "1ACF-1ADD 1AE0-1AEB 10EFA-10EFB 11B60 11B62-11B64 11B66 1E6E3
    1E6E6 1E6EE-1E6EF 1E6F5 1E94B"
  (((CharSet.unions [nonspacingMark, enclosingMark, format]).minus solid).union further)

end MarkupGrammar.Character
