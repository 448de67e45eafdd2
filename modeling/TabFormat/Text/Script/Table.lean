/-!
# Table of the scripts

The script of every code point, as consecutive runs from code point 0 on: the code of the script,
followed by the number of code points. The long names of the scripts follow.
-/

namespace TabFormat.Text

/-- The scripts of all code points, as runs of a code and a length. -/
def scriptRuns : List String :=
  ["Zyyy65Latn26Zyyy6Latn26Zyyy47Latn1Zyyy15Latn1Zyyy5Latn23Zyyy1Latn31Zyyy1Latn449Zyyy39Latn5",
   "Zyyy5Bopo2Zyyy20Zinh112Grek4Zyyy1Grek3Zzzz2Grek4Zyyy1Grek1Zzzz4Grek1Zyyy1Grek1Zyyy1Grek3",
   "Zzzz1Grek1Zzzz1Grek20Zzzz1Grek63Copt14Grek16Cyrl133Zinh2Cyrl169Zzzz1Armn38Zzzz2Armn50Zzzz2",
   "Armn3Zzzz1Hebr55Zzzz8Hebr27Zzzz4Hebr6Zzzz11Arab5Zyyy1Arab6Zyyy1Arab14Zyyy1Arab3Zyyy1Arab32",
   "Zyyy1Arab10Zinh11Arab26Zinh1Arab108Zyyy1Arab34Syrc14Zzzz1Syrc60Zzzz2Syrc3Arab48Thaa50Zzzz14",
   "Nkoo59Zzzz2Nkoo3Samr46Zzzz2Samr15Zzzz1Mand28Zzzz2Mand1Zzzz1Syrc11Zzzz5Arab34Zzzz5Arab75Zyyy1",
   "Arab29Deva81Zinh4Deva15Zyyy2Deva26Beng4Zzzz1Beng8Zzzz2Beng2Zzzz2Beng22Zzzz1Beng7Zzzz1Beng1",
   "Zzzz3Beng4Zzzz2Beng9Zzzz2Beng2Zzzz2Beng4Zzzz8Beng1Zzzz4Beng2Zzzz1Beng5Zzzz2Beng25Zzzz2Guru3",
   "Zzzz1Guru6Zzzz4Guru2Zzzz2Guru22Zzzz1Guru7Zzzz1Guru2Zzzz1Guru2Zzzz1Guru2Zzzz2Guru1Zzzz1Guru5",
   "Zzzz4Guru2Zzzz2Guru3Zzzz3Guru1Zzzz7Guru4Zzzz1Guru1Zzzz7Guru17Zzzz10Gujr3Zzzz1Gujr9Zzzz1Gujr3",
   "Zzzz1Gujr22Zzzz1Gujr7Zzzz1Gujr2Zzzz1Gujr5Zzzz2Gujr10Zzzz1Gujr3Zzzz1Gujr3Zzzz2Gujr1Zzzz15",
   "Gujr4Zzzz2Gujr12Zzzz7Gujr7Zzzz1Orya3Zzzz1Orya8Zzzz2Orya2Zzzz2Orya22Zzzz1Orya7Zzzz1Orya2Zzzz1",
   "Orya5Zzzz2Orya9Zzzz2Orya2Zzzz2Orya3Zzzz7Orya3Zzzz4Orya2Zzzz1Orya5Zzzz2Orya18Zzzz10Taml2Zzzz1",
   "Taml6Zzzz3Taml3Zzzz1Taml4Zzzz3Taml2Zzzz1Taml1Zzzz1Taml2Zzzz3Taml2Zzzz3Taml3Zzzz3Taml12Zzzz4",
   "Taml5Zzzz3Taml3Zzzz1Taml4Zzzz2Taml1Zzzz6Taml1Zzzz14Taml21Zzzz5Telu13Zzzz1Telu3Zzzz1Telu23",
   "Zzzz1Telu16Zzzz2Telu9Zzzz1Telu3Zzzz1Telu4Zzzz7Telu2Zzzz1Telu3Zzzz1Telu2Zzzz2Telu4Zzzz2Telu10",
   "Zzzz7Telu9Knda13Zzzz1Knda3Zzzz1Knda23Zzzz1Knda10Zzzz1Knda5Zzzz2Knda9Zzzz1Knda3Zzzz1Knda4",
   "Zzzz7Knda2Zzzz5Knda3Zzzz1Knda4Zzzz2Knda10Zzzz1Knda3Zzzz12Mlym13Zzzz1Mlym3Zzzz1Mlym51Zzzz1",
   "Mlym3Zzzz1Mlym6Zzzz4Mlym16Zzzz2Mlym26Zzzz1Sinh3Zzzz1Sinh18Zzzz3Sinh24Zzzz1Sinh9Zzzz1Sinh1",
   "Zzzz2Sinh7Zzzz3Sinh1Zzzz4Sinh6Zzzz1Sinh1Zzzz1Sinh8Zzzz6Sinh10Zzzz2Sinh3Zzzz12Thai58Zzzz4",
   "Zyyy1Thai28Zzzz37Laoo2Zzzz1Laoo1Zzzz1Laoo5Zzzz1Laoo24Zzzz1Laoo1Zzzz1Laoo23Zzzz2Laoo5Zzzz1",
   "Laoo1Zzzz1Laoo7Zzzz1Laoo10Zzzz2Laoo4Zzzz32Tibt72Zzzz1Tibt36Zzzz4Tibt39Zzzz1Tibt36Zzzz1Tibt15",
   "Zzzz1Tibt7Zyyy4Tibt2Zzzz37Mymr160Geor38Zzzz1Geor1Zzzz5Geor1Zzzz2Geor43Zyyy1Geor4Hang256",
   "Ethi73Zzzz1Ethi4Zzzz2Ethi7Zzzz1Ethi1Zzzz1Ethi4Zzzz2Ethi41Zzzz1Ethi4Zzzz2Ethi33Zzzz1Ethi4",
   "Zzzz2Ethi7Zzzz1Ethi1Zzzz1Ethi4Zzzz2Ethi15Zzzz1Ethi57Zzzz1Ethi4Zzzz2Ethi67Zzzz2Ethi32Zzzz3",
   "Ethi26Zzzz6Cher86Zzzz2Cher6Zzzz2Cans640Ogam29Zzzz3Runr75Zyyy3Runr11Zzzz7Tglg22Zzzz9Tglg1",
   "Hano21Zyyy2Zzzz9Buhd20Zzzz12Tagb13Zzzz1Tagb3Zzzz1Tagb2Zzzz12Khmr94Zzzz2Khmr10Zzzz6Khmr10",
   "Zzzz6Mong2Zyyy2Mong1Zyyy1Mong20Zzzz6Mong89Zzzz7Mong43Zzzz5Cans70Zzzz10Limb31Zzzz1Limb12Zzzz4",
   "Limb12Zzzz4Limb1Zzzz3Limb12Tale30Zzzz2Tale5Zzzz11Talu44Zzzz4Talu26Zzzz6Talu11Zzzz3Talu2",
   "Khmr32Bugi28Zzzz2Bugi2Lana63Zzzz1Lana29Zzzz2Lana11Zzzz6Lana10Zzzz6Lana14Zzzz2Zinh46Zzzz2",
   "Zinh12Zzzz20Bali77Zzzz1Bali50Sund64Batk52Zzzz8Batk4Lepc56Zzzz3Lepc15Zzzz3Lepc3Olck48Cyrl11",
   "Zzzz5Geor43Zzzz2Geor3Sund8Zzzz8Zinh3Zyyy1Zinh13Zyyy1Zinh7Zyyy4Zinh1Zyyy6Zinh1Zyyy3Zinh2Zyyy1",
   "Zzzz5Latn38Grek5Cyrl1Latn49Grek5Latn4Grek5Latn13Cyrl1Latn70Grek1Zinh64Latn256Grek22Zzzz2",
   "Grek6Zzzz2Grek38Zzzz2Grek6Zzzz2Grek8Zzzz1Grek1Zzzz1Grek1Zzzz1Grek1Zzzz1Grek31Zzzz2Grek53",
   "Zzzz1Grek15Zzzz1Grek14Zzzz2Grek6Zzzz1Grek19Zzzz2Grek3Zzzz1Grek9Zzzz1Zyyy12Zinh2Zyyy87Zzzz1",
   "Zyyy11Latn1Zzzz2Zyyy11Latn1Zyyy15Zzzz1Latn13Zzzz3Zyyy34Zzzz14Zinh33Zzzz15Zyyy38Grek1Zyyy3",
   "Latn2Zyyy6Latn1Zyyy27Latn1Zyyy17Latn41Zyyy3Zzzz4Zyyy666Zzzz22Zyyy11Zzzz21Zyyy928Brai256",
   "Zyyy628Zzzz2Zyyy138Glag96Latn32Copt116Zzzz5Copt7Geor38Zzzz1Geor1Zzzz5Geor1Zzzz2Tfng56Zzzz7",
   "Tfng2Zzzz14Tfng1Ethi23Zzzz9Ethi7Zzzz1Ethi7Zzzz1Ethi7Zzzz1Ethi7Zzzz1Ethi7Zzzz1Ethi7Zzzz1Ethi7",
   "Zzzz1Ethi7Zzzz1Cyrl32Zyyy94Zzzz34Hani26Zzzz1Hani89Zzzz12Hani214Zzzz26Zyyy21Hani1Zyyy1Hani1",
   "Zyyy25Hani9Zinh4Hang2Zyyy8Hani4Zyyy4Zzzz1Hira86Zzzz2Zinh2Zyyy2Hira3Zyyy1Kana90Zyyy2Kana3",
   "Zzzz5Bopo43Zzzz1Hang94Zzzz1Zyyy16Bopo32Zyyy38Zzzz9Zyyy1Kana16Hang31Zzzz1Zyyy64Hang31Zyyy81",
   "Kana47Zyyy1Kana88Zyyy168Hani6592Zyyy64Hani20992Yiii1165Zzzz3Yiii55Zzzz9Lisu48Vaii300Zzzz20",
   "Cyrl96Bamu88Zzzz8Zyyy34Latn102Zyyy3Latn82Zzzz20Latn15Sylo45Zzzz3Zyyy10Zzzz6Phag56Zzzz8Saur70",
   "Zzzz8Saur12Zzzz6Deva32Kali46Zyyy1Kali1Rjng36Zzzz11Rjng1Hang29Zzzz3Java78Zzzz1Zyyy1Java10",
   "Zzzz4Java2Mymr31Zzzz1Cham55Zzzz9Cham14Zzzz2Cham10Zzzz2Cham4Mymr32Tavt67Zzzz24Tavt5Mtei23",
   "Zzzz10Ethi6Zzzz2Ethi6Zzzz2Ethi6Zzzz9Ethi7Zzzz1Ethi7Zzzz1Latn43Zyyy1Latn9Grek1Latn4Zyyy2Zzzz4",
   "Cher80Mtei46Zzzz2Mtei10Zzzz6Hang11172Zzzz12Hang23Zzzz4Hang49Zzzz8452Hani366Zzzz2Hani106",
   "Zzzz38Latn7Zzzz12Armn5Zzzz5Hebr26Zzzz1Hebr5Zzzz1Hebr1Zzzz1Hebr2Zzzz1Hebr2Zzzz1Hebr10Arab494",
   "Zyyy2Arab144Zzzz32Arab16Zinh16Zyyy10Zzzz6Zinh14Cyrl2Zyyy35Zzzz1Zyyy19Zzzz1Zyyy4Zzzz4Arab5",
   "Zzzz1Arab135Zzzz2Zyyy1Zzzz1Zyyy32Latn26Zyyy6Latn26Zyyy11Kana10Zyyy1Kana45Zyyy2Hang31Zzzz3",
   "Hang6Zzzz2Hang6Zzzz2Hang6Zzzz2Hang3Zzzz3Zyyy7Zzzz1Zyyy7Zzzz10Zyyy5Zzzz2Linb12Zzzz1Linb26",
   "Zzzz1Linb19Zzzz1Linb2Zzzz1Linb15Zzzz2Linb14Zzzz34Linb123Zzzz5Zyyy3Zzzz4Zyyy45Zzzz3Zyyy9",
   "Grek79Zzzz1Zyyy13Zzzz3Grek1Zzzz47Zyyy45Zinh1Zzzz130Lyci29Zzzz3Cari49Zzzz15Zinh1Zyyy27Zzzz4",
   "Ital36Zzzz9Ital3Goth27Zzzz5Perm43Zzzz5Ugar30Zzzz1Ugar1Xpeo36Zzzz4Xpeo14Zzzz42Dsrt80Shaw48",
   "Osma30Zzzz2Osma10Zzzz6Osge36Zzzz4Osge36Zzzz4Elba40Zzzz8Aghb52Zzzz11Aghb1Vith11Zzzz1Vith15",
   "Zzzz1Vith7Zzzz1Vith2Zzzz1Vith11Zzzz1Vith15Zzzz1Vith7Zzzz1Vith2Zzzz3Todr52Zzzz12Lina311Zzzz9",
   "Lina22Zzzz10Lina8Zzzz24Latn6Zzzz1Latn42Zzzz1Latn9Zzzz69Cprt6Zzzz2Cprt1Zzzz1Cprt44Zzzz1Cprt2",
   "Zzzz3Cprt1Zzzz2Cprt1Armi22Zzzz1Armi9Palm32Nbat31Zzzz8Nbat9Zzzz48Hatr19Zzzz1Hatr2Zzzz5Hatr5",
   "Phnx28Zzzz3Phnx1Lydi26Zzzz5Lydi1Sidt26Zzzz38Mero32Merc24Zzzz4Merc20Zzzz2Merc46Khar4Zzzz1",
   "Khar2Zzzz5Khar8Zzzz1Khar3Zzzz1Khar29Zzzz2Khar3Zzzz4Khar10Zzzz7Khar9Zzzz7Sarb32Narb32Zzzz32",
   "Mani39Zzzz4Mani12Zzzz9Avst54Zzzz3Avst7Prti22Zzzz2Prti8Phli19Zzzz5Phli8Phlp18Zzzz7Phlp4Zzzz12",
   "Phlp7Zzzz80Orkh73Zzzz55Hung51Zzzz13Hung51Zzzz7Hung6Rohg40Zzzz8Rohg10Zzzz6Gara38Zzzz3Gara29",
   "Zzzz8Gara2Zzzz208Arab31Zzzz1Yezi42Zzzz1Yezi3Zzzz2Yezi2Zzzz16Arab6Zzzz8Arab9Zzzz33Arab6Sogo40",
   "Zzzz8Sogd42Zzzz22Ougr26Zzzz38Chrs28Zzzz20Elym23Zzzz9Brah78Zzzz4Brah36Zzzz9Brah1Kthi67Zzzz10",
   "Kthi1Zzzz2Sora25Zzzz7Sora10Zzzz6Cakm53Zzzz1Cakm18Zzzz8Mahj39Zzzz9Shrd96Zzzz1Sinh20Zzzz11",
   "Khoj18Zzzz1Khoj47Zzzz62Mult7Zzzz1Mult1Zzzz1Mult4Zzzz1Mult15Zzzz1Mult11Zzzz6Sind59Zzzz5Sind10",
   "Zzzz6Gran4Zzzz1Gran8Zzzz2Gran2Zzzz2Gran22Zzzz1Gran7Zzzz1Gran2Zzzz1Gran5Zzzz1Zinh1Gran9Zzzz2",
   "Gran2Zzzz2Gran3Zzzz2Gran1Zzzz6Gran1Zzzz5Gran7Zzzz2Gran7Zzzz3Gran5Zzzz11Tutg10Zzzz1Tutg1Zzzz2",
   "Tutg1Zzzz1Tutg38Zzzz1Tutg10Zzzz1Tutg1Zzzz2Tutg1Zzzz1Tutg4Zzzz1Tutg10Zzzz1Tutg2Zzzz8Tutg2",
   "Zzzz29Newa92Zzzz1Newa5Zzzz30Tirh72Zzzz8Tirh10Zzzz166Sidd54Zzzz2Sidd38Zzzz34Modi69Zzzz11",
   "Modi10Zzzz6Mong13Zzzz19Takr58Zzzz6Takr10Zzzz6Mymr20Zzzz28Ahom27Zzzz2Ahom15Zzzz4Ahom23Zzzz185",
   "Dogr60Zzzz100Wara83Zzzz12Wara1Diak7Zzzz2Diak1Zzzz2Diak8Zzzz1Diak2Zzzz1Diak30Zzzz1Diak2Zzzz2",
   "Diak12Zzzz9Diak10Zzzz70Nand8Zzzz2Nand46Zzzz2Nand11Zzzz27Zanb72Zzzz8Soyo83Zzzz13Cans16Pauc57",
   "Zzzz7Deva10Zzzz86Shrd8Zzzz88Sunu34Zzzz14Sunu10Zzzz6Bhks9Zzzz1Bhks45Zzzz1Bhks14Zzzz10Bhks29",
   "Zzzz3Marc32Zzzz2Marc22Zzzz1Marc14Zzzz73Gonm7Zzzz1Gonm2Zzzz1Gonm44Zzzz3Gonm1Zzzz1Gonm2Zzzz1",
   "Gonm9Zzzz8Gonm10Zzzz6Gong6Zzzz1Gong2Zzzz1Gong37Zzzz1Gong2Zzzz1Gong6Zzzz7Gong10Zzzz6Tols44",
   "Zzzz4Tols10Zzzz246Maka25Zzzz7Kawi17Zzzz1Kawi41Zzzz3Kawi29Zzzz85Lisu1Zzzz15Taml50Zzzz13Taml1",
   "Xsux922Zzzz102Xsux111Zzzz1Xsux5Zzzz11Xsux196Zzzz2636Cpmn99Zzzz13Egyp1110Zzzz10Egyp3995Zzzz5",
   "Hluw583Zzzz6841Gukh58Zzzz1734Bamu569Zzzz7Mroo31Zzzz1Mroo10Zzzz4Mroo2Tnsa79Zzzz1Tnsa10Zzzz6",
   "Bass30Zzzz2Bass6Zzzz10Hmng70Zzzz10Hmng10Zzzz1Hmng7Zzzz1Hmng21Zzzz5Hmng19Zzzz432Krai58Zzzz198",
   "Medf91Zzzz5Berf25Zzzz2Berf25Zzzz44Plrd75Zzzz4Plrd57Zzzz7Plrd17Zzzz64Tang1Nshu1Hani2Kits1",
   "Zzzz11Hani7Zzzz9Tang6912Kits470Zzzz41Kits1Tang31Zzzz97Tang115Zzzz8701Kana4Zzzz1Kana7Zzzz1",
   "Kana2Zzzz1Kana1Hira287Kana3Zzzz15Hira1Zzzz29Hira3Zzzz2Kana1Zzzz14Kana4Zzzz8Nshu396Zzzz2308",
   "Dupl107Zzzz5Dupl13Zzzz3Dupl9Zzzz7Dupl10Zzzz2Dupl4Zyyy4Zzzz3932Zyyy253Zzzz3Zyyy436Zzzz6Zyyy23",
   "Zzzz15Zyyy17Zzzz15Zinh46Zzzz2Zinh23Zzzz9Zyyy116Zzzz60Zyyy246Zzzz10Zyyy39Zzzz2Zyyy62Zinh3",
   "Zyyy17Zinh8Zyyy2Zinh7Zyyy30Zinh4Zyyy61Zzzz21Grek70Zzzz122Zyyy20Zzzz12Zyyy20Zzzz12Zyyy87Zzzz9",
   "Zyyy25Zzzz135Zyyy85Zzzz1Zyyy71Zzzz1Zyyy2Zzzz2Zyyy1Zzzz2Zyyy2Zzzz2Zyyy4Zzzz1Zyyy12Zzzz1Zyyy1",
   "Zzzz1Zyyy7Zzzz1Zyyy65Zzzz1Zyyy4Zzzz2Zyyy8Zzzz1Zyyy7Zzzz1Zyyy28Zzzz1Zyyy4Zzzz1Zyyy5Zzzz1Zyyy1",
   "Zzzz3Zyyy7Zzzz1Zyyy340Zzzz2Zyyy292Zzzz2Zyyy50Sgnw652Zzzz15Sgnw5Zzzz1Sgnw15Zzzz1104Latn31",
   "Zzzz6Latn6Zzzz213Glag7Zzzz1Glag17Zzzz2Glag7Zzzz1Glag2Zzzz1Glag5Zzzz5Cyrl62Zzzz33Cyrl1Zzzz112",
   "Hmnp45Zzzz3Hmnp14Zzzz2Hmnp10Zzzz4Hmnp2Zzzz320Toto31Zzzz17Wcho58Zzzz5Wcho1Zzzz464Nagm42",
   "Zzzz214Onao43Zzzz4Onao1Zzzz192Tayo31Zzzz1Tayo22Zzzz8Tayo2Zzzz224Ethi7Zzzz1Ethi4Zzzz1Ethi2",
   "Zzzz1Ethi15Zzzz1Mend197Zzzz2Mend16Zzzz41Adlm76Zzzz4Adlm10Zzzz4Adlm2Zzzz785Zyyy68Zzzz76Zyyy61",
   "Zzzz194Arab4Zzzz1Arab27Zzzz1Arab2Zzzz1Arab1Zzzz2Arab1Zzzz1Arab10Zzzz1Arab4Zzzz1Arab1Zzzz1",
   "Arab1Zzzz6Arab1Zzzz4Arab1Zzzz1Arab1Zzzz1Arab1Zzzz1Arab3Zzzz1Arab2Zzzz1Arab1Zzzz2Arab1Zzzz1",
   "Arab1Zzzz1Arab1Zzzz1Arab1Zzzz1Arab1Zzzz1Arab2Zzzz1Arab1Zzzz2Arab4Zzzz1Arab7Zzzz1Arab4Zzzz1",
   "Arab4Zzzz1Arab1Zzzz1Arab10Zzzz1Arab17Zzzz5Arab3Zzzz1Arab5Zzzz1Arab17Zzzz52Arab2Zzzz270Zyyy44",
   "Zzzz4Zyyy100Zzzz12Zyyy15Zzzz2Zyyy15Zzzz1Zyyy15Zzzz1Zyyy37Zzzz10Zyyy174Zzzz56Zyyy26Hira1Zyyy2",
   "Zzzz13Zyyy44Zzzz4Zyyy9Zzzz7Zyyy2Zzzz14Zyyy6Zzzz154Zyyy985Zzzz3Zyyy17Zzzz3Zyyy13Zzzz3Zyyy218",
   "Zzzz6Zyyy12Zzzz4Zyyy1Zzzz15Zyyy12Zzzz4Zyyy56Zzzz8Zyyy10Zzzz6Zyyy40Zzzz8Zyyy30Zzzz2Zyyy12",
   "Zzzz4Zyyy2Zzzz14Zyyy9Zzzz39Zyyy344Zzzz8Zyyy14Zzzz2Zyyy13Zzzz3Zyyy11Zzzz3Zyyy57Zzzz1Zyyy1",
   "Zzzz4Zyyy16Zzzz2Zyyy12Zzzz4Zyyy10Zzzz7Zyyy147Zzzz1Zyyy103Zzzz1029Hani42720Zzzz32Hani4382",
   "Zzzz2Hani5774Zzzz2Hani7473Zzzz15Hani622Zzzz2466Hani542Zzzz1506Hani4939Zzzz5Hani8490",
   "Zzzz707463Zyyy1Zzzz30Zyyy96Zzzz128Zinh240Zzzz196112"]

/-- The codes of the scripts with their long names. -/
def scriptNames : List (String × String) :=
  [("Adlm", "Adlam"), ("Aghb", "Caucasian_Albanian"), ("Ahom", "Ahom"),
   ("Arab", "Arabic"), ("Armi", "Imperial_Aramaic"), ("Armn", "Armenian"),
   ("Avst", "Avestan"), ("Bali", "Balinese"), ("Bamu", "Bamum"),
   ("Bass", "Bassa_Vah"), ("Batk", "Batak"), ("Beng", "Bengali"),
   ("Berf", "Beria_Erfe"), ("Bhks", "Bhaiksuki"), ("Bopo", "Bopomofo"),
   ("Brah", "Brahmi"), ("Brai", "Braille"), ("Bugi", "Buginese"),
   ("Buhd", "Buhid"), ("Cakm", "Chakma"), ("Cans", "Canadian_Aboriginal"),
   ("Cari", "Carian"), ("Cham", "Cham"), ("Cher", "Cherokee"),
   ("Chrs", "Chorasmian"), ("Copt", "Coptic"), ("Copt", "Qaac"),
   ("Cpmn", "Cypro_Minoan"), ("Cprt", "Cypriot"), ("Cyrl", "Cyrillic"),
   ("Deva", "Devanagari"), ("Diak", "Dives_Akuru"), ("Dogr", "Dogra"),
   ("Dsrt", "Deseret"), ("Dupl", "Duployan"), ("Egyp", "Egyptian_Hieroglyphs"),
   ("Elba", "Elbasan"), ("Elym", "Elymaic"), ("Ethi", "Ethiopic"),
   ("Gara", "Garay"), ("Geor", "Georgian"), ("Glag", "Glagolitic"),
   ("Gong", "Gunjala_Gondi"), ("Gonm", "Masaram_Gondi"), ("Goth", "Gothic"),
   ("Gran", "Grantha"), ("Grek", "Greek"), ("Gujr", "Gujarati"),
   ("Gukh", "Gurung_Khema"), ("Guru", "Gurmukhi"), ("Hang", "Hangul"),
   ("Hani", "Han"), ("Hano", "Hanunoo"), ("Hatr", "Hatran"),
   ("Hebr", "Hebrew"), ("Hira", "Hiragana"), ("Hluw", "Anatolian_Hieroglyphs"),
   ("Hmng", "Pahawh_Hmong"), ("Hmnp", "Nyiakeng_Puachue_Hmong"), ("Hung", "Old_Hungarian"),
   ("Ital", "Old_Italic"), ("Java", "Javanese"), ("Kali", "Kayah_Li"),
   ("Kana", "Katakana"), ("Kawi", "Kawi"), ("Khar", "Kharoshthi"),
   ("Khmr", "Khmer"), ("Khoj", "Khojki"), ("Kits", "Khitan_Small_Script"),
   ("Knda", "Kannada"), ("Krai", "Kirat_Rai"), ("Kthi", "Kaithi"),
   ("Lana", "Tai_Tham"), ("Laoo", "Lao"), ("Latn", "Latin"),
   ("Lepc", "Lepcha"), ("Limb", "Limbu"), ("Lina", "Linear_A"),
   ("Linb", "Linear_B"), ("Lisu", "Lisu"), ("Lyci", "Lycian"),
   ("Lydi", "Lydian"), ("Mahj", "Mahajani"), ("Maka", "Makasar"),
   ("Mand", "Mandaic"), ("Mani", "Manichaean"), ("Marc", "Marchen"),
   ("Medf", "Medefaidrin"), ("Mend", "Mende_Kikakui"), ("Merc", "Meroitic_Cursive"),
   ("Mero", "Meroitic_Hieroglyphs"), ("Mlym", "Malayalam"), ("Modi", "Modi"),
   ("Mong", "Mongolian"), ("Mroo", "Mro"), ("Mtei", "Meetei_Mayek"),
   ("Mult", "Multani"), ("Mymr", "Myanmar"), ("Nagm", "Nag_Mundari"),
   ("Nand", "Nandinagari"), ("Narb", "Old_North_Arabian"), ("Nbat", "Nabataean"),
   ("Newa", "Newa"), ("Nkoo", "Nko"), ("Nshu", "Nushu"),
   ("Ogam", "Ogham"), ("Olck", "Ol_Chiki"), ("Onao", "Ol_Onal"),
   ("Orkh", "Old_Turkic"), ("Orya", "Oriya"), ("Osge", "Osage"),
   ("Osma", "Osmanya"), ("Ougr", "Old_Uyghur"), ("Palm", "Palmyrene"),
   ("Pauc", "Pau_Cin_Hau"), ("Perm", "Old_Permic"), ("Phag", "Phags_Pa"),
   ("Phli", "Inscriptional_Pahlavi"), ("Phlp", "Psalter_Pahlavi"), ("Phnx", "Phoenician"),
   ("Plrd", "Miao"), ("Prti", "Inscriptional_Parthian"), ("Rjng", "Rejang"),
   ("Rohg", "Hanifi_Rohingya"), ("Runr", "Runic"), ("Samr", "Samaritan"),
   ("Sarb", "Old_South_Arabian"), ("Saur", "Saurashtra"), ("Sgnw", "SignWriting"),
   ("Shaw", "Shavian"), ("Shrd", "Sharada"), ("Sidd", "Siddham"),
   ("Sidt", "Sidetic"), ("Sind", "Khudawadi"), ("Sinh", "Sinhala"),
   ("Sogd", "Sogdian"), ("Sogo", "Old_Sogdian"), ("Sora", "Sora_Sompeng"),
   ("Soyo", "Soyombo"), ("Sund", "Sundanese"), ("Sunu", "Sunuwar"),
   ("Sylo", "Syloti_Nagri"), ("Syrc", "Syriac"), ("Tagb", "Tagbanwa"),
   ("Takr", "Takri"), ("Tale", "Tai_Le"), ("Talu", "New_Tai_Lue"),
   ("Taml", "Tamil"), ("Tang", "Tangut"), ("Tavt", "Tai_Viet"),
   ("Tayo", "Tai_Yo"), ("Telu", "Telugu"), ("Tfng", "Tifinagh"),
   ("Tglg", "Tagalog"), ("Thaa", "Thaana"), ("Thai", "Thai"),
   ("Tibt", "Tibetan"), ("Tirh", "Tirhuta"), ("Tnsa", "Tangsa"),
   ("Todr", "Todhri"), ("Tols", "Tolong_Siki"), ("Toto", "Toto"),
   ("Tutg", "Tulu_Tigalari"), ("Ugar", "Ugaritic"), ("Vaii", "Vai"),
   ("Vith", "Vithkuqi"), ("Wara", "Warang_Citi"), ("Wcho", "Wancho"),
   ("Xpeo", "Old_Persian"), ("Xsux", "Cuneiform"), ("Yezi", "Yezidi"),
   ("Yiii", "Yi"), ("Zanb", "Zanabazar_Square"), ("Zinh", "Inherited"),
   ("Zinh", "Qaai"), ("Zyyy", "Common"), ("Zzzz", "Unknown")]

end TabFormat.Text
