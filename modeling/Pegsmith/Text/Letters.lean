import Pegsmith.Text.CodeTable

/-!
Letter case: the Unicode properties Uppercase and Lowercase and the lower-case mapping. Of ASCII
they say what core says; the tables hold the rest.
-/

set_option autoImplicit false

namespace Pegsmith.Text

def upperTable : CodeTable := .ofLines
  ["C0-D6 D8-DE 100~136 139~147 14A~176 178-179 17B 17D 181-182 184 186-187 189-18B 18E-191",
   "193-194 196-198 19C-19D 19F-1A0 1A2 1A4 1A6-1A7 1A9 1AC 1AE-1AF 1B1-1B3 1B5 1B7-1B8 1BC",
   "1C4 1C7 1CA 1CD~1DB 1DE~1EE 1F1 1F4 1F6-1F8 1FA~232 23A-23B 23D-23E 241 243-246 248~24E",
   "370 372 376 37F 386 388-38A 38C 38E-38F 391-3A1 3A3-3AB 3CF 3D2-3D4 3D8~3EE 3F4 3F7",
   "3F9-3FA 3FD-42F 460~480 48A~4BE 4C0-4C1 4C3~4CD 4D0~52E 531-556 10A0-10C5 10C7 10CD",
   "13A0-13F5 1C90-1CBA 1CBD-1CBF 1E00~1E94 1E9E~1EFE 1F08-1F0F 1F18-1F1D 1F28-1F2F 1F38-1F3F",
   "1F48-1F4D 1F59~1F5F 1F68-1F6F 1FB8-1FBB 1FC8-1FCB 1FD8-1FDB 1FE8-1FEC 1FF8-1FFB 2102 2107",
   "210B-210D 2110-2112 2115 2119-211D 2124~2128 212A-212D 2130-2133 213E-213F 2145 2160-216F",
   "2183 24B6-24CF 2C00-2C2F 2C60 2C62-2C64 2C67~2C6B 2C6D-2C70 2C72 2C75 2C7E-2C80 2C82~2CE2",
   "2CEB 2CED 2CF2 A640~A66C A680~A69A A722~A72E A732~A76E A779 A77B A77D-A77E A780~A786 A78B",
   "A78D A790 A792 A796~A7A8 A7AA-A7AE A7B0-A7B4 A7B6~A7C2 A7C4-A7C7 A7C9 A7D0 A7D6 A7D8 A7F5",
   "FF21-FF3A 10400-10427 104B0-104D3 10570-1057A 1057C-1058A 1058C-10592 10594-10595",
   "10C80-10CB2 118A0-118BF 16E40-16E5F 1D400-1D419 1D434-1D44D 1D468-1D481 1D49C 1D49E-1D49F",
   "1D4A2 1D4A5-1D4A6 1D4A9-1D4AC 1D4AE-1D4B5 1D4D0-1D4E9 1D504-1D505 1D507-1D50A 1D50D-1D514",
   "1D516-1D51C 1D538-1D539 1D53B-1D53E 1D540-1D544 1D546 1D54A-1D550 1D56C-1D585 1D5A0-1D5B9",
   "1D5D4-1D5ED 1D608-1D621 1D63C-1D655 1D670-1D689 1D6A8-1D6C0 1D6E2-1D6FA 1D71C-1D734",
   "1D756-1D76E 1D790-1D7A8 1D7CA 1E900-1E921 1F130-1F149 1F150-1F169 1F170-1F189"]

def lowerTable : CodeTable := .ofLines
  ["AA B5 BA DF-F6 F8-FF 101~135 137-138 13A~146 148-149 14B~177 17A 17C 17E-180 183 185 188",
   "18C-18D 192 195 199-19B 19E 1A1~1A5 1A8 1AA-1AB 1AD 1B0 1B4 1B6 1B9-1BA 1BD-1BF 1C6 1C9",
   "1CC~1DA 1DC-1DD 1DF~1ED 1EF-1F0 1F3 1F5 1F9~231 233-239 23C 23F-240 242 247~24D 24F-293",
   "295-2B8 2C0-2C1 2E0-2E4 345 371 373 377 37A-37D 390 3AC-3CE 3D0-3D1 3D5-3D7 3D9~3ED",
   "3EF-3F3 3F5 3F8 3FB-3FC 430-45F 461~481 48B~4BF 4C2~4CC 4CE-4CF 4D1~52F 560-588 10D0-10FA",
   "10FC-10FF 13F8-13FD 1C80-1C88 1D00-1DBF 1E01~1E93 1E95-1E9D 1E9F~1EFD 1EFF-1F07 1F10-1F15",
   "1F20-1F27 1F30-1F37 1F40-1F45 1F50-1F57 1F60-1F67 1F70-1F7D 1F80-1F87 1F90-1F97 1FA0-1FA7",
   "1FB0-1FB4 1FB6-1FB7 1FBE 1FC2-1FC4 1FC6-1FC7 1FD0-1FD3 1FD6-1FD7 1FE0-1FE7 1FF2-1FF4",
   "1FF6-1FF7 2071 207F 2090-209C 210A 210E-210F 2113 212F 2134 2139 213C-213D 2146-2149 214E",
   "2170-217F 2184 24D0-24E9 2C30-2C5F 2C61 2C65-2C66 2C68~2C6C 2C71 2C73-2C74 2C76-2C7D",
   "2C81~2CE1 2CE3-2CE4 2CEC 2CEE 2CF3 2D00-2D25 2D27 2D2D A641~A66D A681~A699 A69B-A69D",
   "A723~A72D A72F-A731 A733~A76D A76F-A778 A77A A77C A77F~A787 A78C A78E A791 A793-A795",
   "A797~A7A9 A7AF A7B5~A7C3 A7C8 A7CA A7D1~A7D9 A7F2-A7F4 A7F6 A7F8-A7FA AB30-AB5A AB5C-AB69",
   "AB70-ABBF FB00-FB06 FB13-FB17 FF41-FF5A 10428-1044F 104D8-104FB 10597-105A1 105A3-105B1",
   "105B3-105B9 105BB-105BC 10780 10783-10785 10787-107B0 107B2-107BA 10CC0-10CF2 118C0-118DF",
   "16E60-16E7F 1D41A-1D433 1D44E-1D454 1D456-1D467 1D482-1D49B 1D4B6-1D4B9 1D4BB 1D4BD-1D4C3",
   "1D4C5-1D4CF 1D4EA-1D503 1D51E-1D537 1D552-1D56B 1D586-1D59F 1D5BA-1D5D3 1D5EE-1D607",
   "1D622-1D63B 1D656-1D66F 1D68A-1D6A5 1D6C2-1D6DA 1D6DC-1D6E1 1D6FC-1D714 1D716-1D71B",
   "1D736-1D74E 1D750-1D755 1D770-1D788 1D78A-1D78F 1D7AA-1D7C2 1D7C4-1D7C9 1D7CB 1DF00-1DF09",
   "1DF0B-1DF1E 1DF25-1DF2A 1E030-1E06D 1E922-1E943"]

def toLowerTable : CodeTable := .ofLines
  ["C0-D6>E0 D8-DE>F8 100~12E>101 132~136>133 139~147>13A 14A~176>14B 178>FF 179~17D>17A",
   "181>253 182~184>183 186>254 187>188 189-18A>256 18B>18C 18E>1DD 18F>259 190>25B 191>192",
   "193>260 194>263 196>269 197>268 198>199 19C>26F 19D>272 19F>275 1A0~1A4>1A1 1A6>280",
   "1A7>1A8 1A9>283 1AC>1AD 1AE>288 1AF>1B0 1B1-1B2>28A 1B3~1B5>1B4 1B7>292 1B8>1B9 1BC>1BD",
   "1C4>1C6 1C5>1C6 1C7>1C9 1C8>1C9 1CA>1CC 1CB~1DB>1CC 1DE~1EE>1DF 1F1>1F3 1F2~1F4>1F3",
   "1F6>195 1F7>1BF 1F8~21E>1F9 220>19E 222~232>223 23A>2C65 23B>23C 23D>19A 23E>2C66 241>242",
   "243>180 244>289 245>28C 246~24E>247 370~372>371 376>377 37F>3F3 386>3AC 388-38A>3AD",
   "38C>3CC 38E-38F>3CD 391-3A1>3B1 3A3-3AB>3C3 3CF>3D7 3D8~3EE>3D9 3F4>3B8 3F7>3F8 3F9>3F2",
   "3FA>3FB 3FD-3FF>37B 400-40F>450 410-42F>430 460~480>461 48A~4BE>48B 4C0>4CF 4C1~4CD>4C2",
   "4D0~52E>4D1 531-556>561 10A0-10C5>2D00 10C7>2D27 10CD>2D2D 13A0-13EF>AB70 13F0-13F5>13F8",
   "1C90-1CBA>10D0 1CBD-1CBF>10FD 1E00~1E94>1E01 1E9E>DF 1EA0~1EFE>1EA1 1F08-1F0F>1F00",
   "1F18-1F1D>1F10 1F28-1F2F>1F20 1F38-1F3F>1F30 1F48-1F4D>1F40 1F59~1F5F>1F51 1F68-1F6F>1F60",
   "1F88-1F8F>1F80 1F98-1F9F>1F90 1FA8-1FAF>1FA0 1FB8-1FB9>1FB0 1FBA-1FBB>1F70 1FBC>1FB3",
   "1FC8-1FCB>1F72 1FCC>1FC3 1FD8-1FD9>1FD0 1FDA-1FDB>1F76 1FE8-1FE9>1FE0 1FEA-1FEB>1F7A",
   "1FEC>1FE5 1FF8-1FF9>1F78 1FFA-1FFB>1F7C 1FFC>1FF3 2126>3C9 212A>6B 212B>E5 2132>214E",
   "2160-216F>2170 2183>2184 24B6-24CF>24D0 2C00-2C2F>2C30 2C60>2C61 2C62>26B 2C63>1D7D",
   "2C64>27D 2C67~2C6B>2C68 2C6D>251 2C6E>271 2C6F>250 2C70>252 2C72>2C73 2C75>2C76",
   "2C7E-2C7F>23F 2C80~2CE2>2C81 2CEB~2CED>2CEC 2CF2>2CF3 A640~A66C>A641 A680~A69A>A681",
   "A722~A72E>A723 A732~A76E>A733 A779~A77B>A77A A77D>1D79 A77E~A786>A77F A78B>A78C A78D>265",
   "A790~A792>A791 A796~A7A8>A797 A7AA>266 A7AB>25C A7AC>261 A7AD>26C A7AE>26A A7B0>29E",
   "A7B1>287 A7B2>29D A7B3>AB53 A7B4~A7C2>A7B5 A7C4>A794 A7C5>282 A7C6>1D8E A7C7~A7C9>A7C8",
   "A7D0>A7D1 A7D6~A7D8>A7D7 A7F5>A7F6 FF21-FF3A>FF41 10400-10427>10428 104B0-104D3>104D8",
   "10570-1057A>10597 1057C-1058A>105A3 1058C-10592>105B3 10594-10595>105BB 10C80-10CB2>10CC0",
   "118A0-118BF>118C0 16E40-16E5F>16E60 1E900-1E921>1E922"]

def isAscii (c : Char) : Bool :=
  c.toNat < 128

def isUpper (c : Char) : Bool :=
  if isAscii c then c.isUpper else upperTable.contains c.toNat

def isLower (c : Char) : Bool :=
  if isAscii c then c.isLower else lowerTable.contains c.toNat

/-- The lower-case form of a character. That of `İ` alone is two characters. -/
def toLower (c : Char) : List Char :=
  if isAscii c then [c.toLower]
  else if c.toNat == 0x130 then ['i', Char.ofNat 0x307]
  else
    match toLowerTable.find? c.toNat with
    | some r => [Char.ofNat (r.map c.toNat)]
    | none => [c]

theorem toLower_of_isAscii {c : Char} (h : isAscii c = true) : toLower c = [c.toLower] := by
  simp [toLower, h]

end Pegsmith.Text
