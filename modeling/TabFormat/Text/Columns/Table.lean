/-!
# Table of the column widths

The number of columns that every code point takes, as consecutive runs from code point 0 on: `Z` for
none, `N` for one, `W` for two or `T` for three, followed by the number of code points. None are
taken by the characters of the Unicode properties Default_Ignorable_Code_Point and Grapheme_Extend,
by the vowels and final consonants of Hangul, and by a few signs that combine with others; two by
the wide and fullwidth ones of the property East_Asian_Width.
-/

namespace TabFormat.Text

/-- The column widths of all code points, as runs of a code and a length. -/
def columnRuns : List String :=
  ["N173Z1N594Z112N275Z7N263Z45N1Z1N1Z2N1Z2N1Z1N61Z1N10Z11N1Z1N46Z21N16Z1N101Z7N2Z6N2Z2N1Z4N33Z1",
   "N1Z1N30Z27N91Z11N58Z9N9Z1N24Z4N1Z9N1Z3N1Z5N43Z3N52Z2N6Z8N42Z57N55Z1N1Z1N4Z8N4Z1N3Z7N10Z2N29",
   "Z1N58Z1N1Z1N2Z4N8Z1N9Z1N10Z2N26Z1N2Z2N57Z1N4Z2N4Z2N2Z3N3Z1N30Z2N3Z1N11Z2N57Z1N4Z5N1Z2N4Z1N20",
   "Z2N22Z6N1Z1N58Z1N1Z2N1Z4N8Z1N7Z3N10Z2N30Z1N59Z1N1Z1N12Z1N9Z1N40Z1N3Z1N55Z1N1Z3N5Z3N1Z4N7Z2",
   "N11Z2N29Z1N58Z1N2Z2N1Z1N3Z3N1Z4N7Z2N11Z2N28Z2N57Z2N1Z1N2Z4N8Z1N9Z1N10Z2N29Z1N72Z1N4Z1N2Z3N1",
   "Z1N8Z1N81Z1N2Z7N12Z8N98Z1N2Z9N11Z7N73Z2N27Z1N1Z1N1Z1N55Z14N1Z5N1Z2N5Z11N1Z36N9Z1N102Z4N1Z6N1",
   "Z2N2Z2N25Z2N4Z3N16Z4N13Z1N2Z2N6Z1N15Z1N98W96Z160N349Z3N946Z3N29Z2N30Z2N30Z2N48W1N15Z2N1Z7N8",
   "Z1N2Z11N4T1N4Z1N45Z5N117Z2N34Z1N118Z3N4Z2N9Z1N6Z3N219Z2N2Z1N58Z1N1Z7N1Z1N1Z1N2Z8N6Z10N2Z1N48",
   "Z31N49Z4N48Z10N4Z2N39Z9N12Z2N32Z4N2Z2N1Z3N56Z1N1Z2N3Z1N1Z3N58Z8N2Z2N152Z3N1Z13N1Z7N4Z1N6Z1N3",
   "Z2N198Z64N523Z5N26Z5N49Z16N96Z33N553W2N13W2N190W4N3W1N2W1N521W2N21W2N50W12N43W1N19W1N13W1N8",
   "W2N17W2N5W2N8W1N5W1N21W1N7W2N1W1N4W1N2W1N7W1N4W2N28W1N35W1N1W1N4W3N1W1N61W3N24W1N14W1N859W2",
   "N51W1N4W1N409Z3N238Z32N128W26N1W89N12W214N26W58Z6W15N2W86N2Z2W101N5W43N1W51Z1W42N1W84N11W48",
   "N1W40N8W7024N64W22157N3W55N424Z4N1Z10N32Z2N80Z2N272Z1N3Z1N4Z1N25Z2N5Z1N151Z2N26Z18N8Z1N4Z1",
   "N38Z8N25Z11N14W29N3Z3N48Z1N2Z4N2Z2N39Z1N67Z6N2Z2N2Z2N12Z1N8Z1N47Z1N51Z1N1Z3N2Z2N5Z2N1Z1N42Z2",
   "N8Z1N238Z1N2Z1N4Z1N18W11172N12Z23N4Z49N8452W512N30Z1N737Z16W10N6Z16W35N1W19N1W4N147Z1N1W96",
   "N61Z3N63W7N9Z9N516Z1N226Z1N149Z5N1670Z3N1Z2N5Z4N40Z3N4Z1N165Z2N573Z4N387Z2N80Z3N70Z11N49Z4",
   "N123Z1N54Z15N41Z1N2Z2N10Z3N49Z4N2Z2N7Z1N61Z3N36Z5N1Z8N62Z1N12Z2N52Z9N10Z4N2Z1N95Z3N2Z1N1Z2N6",
   "Z1N2Z1N157Z1N3Z8N21Z2N57Z2N1Z1N1Z1N22Z1N14Z7N3Z5N195Z8N2Z3N1Z1N23Z1N81Z1N2Z6N1Z1N2Z1N1Z2N1Z2",
   "N235Z1N2Z4N6Z2N1Z2N27Z2N85Z8N2Z1N1Z2N106Z1N1Z1N2Z6N1Z1N101Z3N2Z4N1Z5N259Z9N1Z2N245Z1N10Z2N1",
   "Z1N4Z1N144Z4N2Z2N4Z1N32Z10N40Z6N2Z4N8Z1N9Z6N2Z3N46Z13N1Z2N406Z7N1Z6N1Z1N82Z22N2Z7N1Z2N1Z2",
   "N122Z6N3Z1N1Z2N1Z7N1Z1N72Z2N3Z1N1Z1N347Z2N11Z2N52Z5N5Z1N1Z1N5373Z1N6Z15N13978Z5N59Z7N1048Z1",
   "N63Z4N77W4Z1N11W2N14W6136N8W1238N42W9N8935W4N1W7N1W2N1W291N15W1N29W3N2W1N14W4N8W396N2465Z2N1",
   "Z4N4700Z46N2Z23N542Z1N1Z3N4Z21N2Z7N30Z4N148Z3N1979Z55N4Z50N8Z1N14Z1N22Z5N1Z15N1360Z7N1Z17N2",
   "Z7N1Z2N1Z5N100Z1N160Z7N375Z1N61Z4N508Z4N992Z7N109Z7N1721W1N202W1N190W1N2W10N101W3N13W44N4W9",
   "N7W2N14W6N154W33N12W9N1W70N1W22N12W43N4W5N12W17N3W1N3W71N1W1N1W187N2W63N13W4N1W24N18W1N26W2",
   "N13W1N86W85N48W70N6W1N3W3N2W3N4W4N11W2N7W9N227W12N4W1N283W47N1W10N1W185N112W13N3W9N7W46N1W7",
   "N8W14N4W9N7W9N1287W65534N2W65534N655362Z4096N192512"]

end TabFormat.Text
