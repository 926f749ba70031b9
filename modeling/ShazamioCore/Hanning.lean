import Mathlib

/-!
# The Hanning window

The 2048 multipliers the transform's input is shaped with, as the source spells them
out, in units of its last decimal place.
-/
namespace Hanning

def tenBillionths : List Nat := [
  23508, 94032, 211570, 376120, 587690, 846260, 1151800, 1504400, 1904000, 2350600, 2844200,
  3384800, 3972300, 4606900, 5288400, 6016800, 6792300, 7614700, 8484000, 9400300, 10363000,
  11374000, 12431000, 13535000, 14685000, 15883000, 17128000, 18419000, 19757000, 21142000,
  22574000, 24053000, 25578000, 27151000, 28770000, 30435000, 32148000, 33907000, 35713000,
  37566000, 39465000, 41411000, 43403000, 45443000, 47528000, 49661000, 51839000, 54065000,
  56337000, 58655000, 61020000, 63431000, 65889000, 68393000, 70943000, 73540000, 76183000,
  78873000, 81608000, 84390000, 87219000, 90093000, 93013000, 95980000, 98993000, 102050000,
  105160000, 108310000, 111500000, 114750000, 118040000, 121370000, 124750000, 128180000,
  131650000, 135170000, 138730000, 142340000, 146000000, 149700000, 153440000, 157240000,
  161070000, 164960000, 168890000, 172860000, 176880000, 180940000, 185050000, 189210000,
  193410000, 197660000, 201950000, 206280000, 210660000, 215090000, 219560000, 224080000,
  228640000, 233240000, 237890000, 242590000, 247330000, 252110000, 256940000, 261820000,
  266740000, 271700000, 276710000, 281760000, 286860000, 292000000, 297180000, 302410000,
  307680000, 313000000, 318360000, 323770000, 329220000, 334710000, 340250000, 345830000,
  351460000, 357120000, 362840000, 368590000, 374390000, 380240000, 386120000, 392050000,
  398030000, 404040000, 410100000, 416200000, 422350000, 428540000, 434770000, 441050000,
  447360000, 453720000, 460130000, 466570000, 473060000, 479590000, 486170000, 492780000,
  499440000, 506140000, 512880000, 519670000, 526500000, 533370000, 540280000, 547230000,
  554230000, 561260000, 568340000, 575460000, 582630000, 589830000, 597070000, 604360000,
  611690000, 619060000, 626470000, 633920000, 641410000, 648950000, 656520000, 664130000,
  671790000, 679490000, 687220000, 695000000, 702820000, 710680000, 718580000, 726520000,
  734500000, 742520000, 750580000, 758680000, 766820000, 775000000, 783210000, 791470000,
  799770000, 808110000, 816490000, 824900000, 833360000, 841850000, 850390000, 858960000,
  867570000, 876220000, 884910000, 893640000, 902410000, 911210000, 920060000, 928940000,
  937860000, 946820000, 955820000, 964850000, 973920000, 983030000, 992180000, 1001400000,
  1010600000, 1019900000, 1029200000, 1038500000, 1047900000, 1057300000, 1066700000, 1076200000,
  1085700000, 1095300000, 1104900000, 1114500000, 1124200000, 1133900000, 1143600000, 1153400000,
  1163200000, 1173100000, 1183000000, 1192900000, 1202800000, 1212800000, 1222800000, 1232900000,
  1243000000, 1253100000, 1263300000, 1273500000, 1283800000, 1294000000, 1304300000, 1314700000,
  1325100000, 1335500000, 1345900000, 1356400000, 1366900000, 1377500000, 1388100000, 1398700000,
  1409300000, 1420000000, 1430700000, 1441500000, 1452300000, 1463100000, 1474000000, 1484900000,
  1495800000, 1506700000, 1517700000, 1528700000, 1539800000, 1550900000, 1562000000, 1573100000,
  1584300000, 1595500000, 1606800000, 1618000000, 1629400000, 1640700000, 1652100000, 1663500000,
  1674900000, 1686400000, 1697900000, 1709400000, 1721000000, 1732500000, 1744200000, 1755800000,
  1767500000, 1779200000, 1791000000, 1802700000, 1814500000, 1826400000, 1838200000, 1850100000,
  1862000000, 1874000000, 1886000000, 1898000000, 1910000000, 1922100000, 1934200000, 1946300000,
  1958500000, 1970700000, 1982900000, 1995100000, 2007400000, 2019700000, 2032000000, 2044400000,
  2056700000, 2069100000, 2081600000, 2094000000, 2106500000, 2119000000, 2131600000, 2144200000,
  2156800000, 2169400000, 2182000000, 2194700000, 2207400000, 2220200000, 2232900000, 2245700000,
  2258500000, 2271300000, 2284200000, 2297100000, 2310000000, 2322900000, 2335900000, 2348900000,
  2361900000, 2374900000, 2388000000, 2401100000, 2414200000, 2427300000, 2440500000, 2453700000,
  2466900000, 2480100000, 2493400000, 2506600000, 2519900000, 2533300000, 2546600000, 2560000000,
  2573400000, 2586800000, 2600200000, 2613700000, 2627200000, 2640700000, 2654200000, 2667800000,
  2681300000, 2694900000, 2708600000, 2722200000, 2735900000, 2749500000, 2763200000, 2777000000,
  2790700000, 2804500000, 2818300000, 2832100000, 2845900000, 2859700000, 2873600000, 2887500000,
  2901400000, 2915300000, 2929300000, 2943200000, 2957200000, 2971200000, 2985200000, 2999300000,
  3013300000, 3027400000, 3041500000, 3055600000, 3069800000, 3083900000, 3098100000, 3112300000,
  3126500000, 3140700000, 3155000000, 3169200000, 3183500000, 3197800000, 3212100000, 3226400000,
  3240800000, 3255100000, 3269500000, 3283900000, 3298300000, 3312700000, 3327200000, 3341600000,
  3356100000, 3370600000, 3385100000, 3399600000, 3414100000, 3428700000, 3443300000, 3457800000,
  3472400000, 3487000000, 3501700000, 3516300000, 3530900000, 3545600000, 3560300000, 3575000000,
  3589700000, 3604400000, 3619100000, 3633900000, 3648600000, 3663400000, 3678200000, 3693000000,
  3707800000, 3722600000, 3737400000, 3752200000, 3767100000, 3782000000, 3796800000, 3811700000,
  3826600000, 3841500000, 3856500000, 3871400000, 3886300000, 3901300000, 3916200000, 3931200000,
  3946200000, 3961200000, 3976200000, 3991200000, 4006200000, 4021300000, 4036300000, 4051300000,
  4066400000, 4081500000, 4096500000, 4111600000, 4126700000, 4141800000, 4156900000, 4172100000,
  4187200000, 4202300000, 4217400000, 4232600000, 4247800000, 4262900000, 4278100000, 4293300000,
  4308400000, 4323600000, 4338800000, 4354000000, 4369200000, 4384400000, 4399700000, 4414900000,
  4430100000, 4445300000, 4460600000, 4475800000, 4491100000, 4506300000, 4521600000, 4536900000,
  4552100000, 4567400000, 4582700000, 4598000000, 4613200000, 4628500000, 4643800000, 4659100000,
  4674400000, 4689700000, 4705000000, 4720300000, 4735600000, 4751000000, 4766300000, 4781600000,
  4796900000, 4812200000, 4827500000, 4842900000, 4858200000, 4873500000, 4888800000, 4904200000,
  4919500000, 4934800000, 4950200000, 4965500000, 4980800000, 4996200000, 5011500000, 5026800000,
  5042200000, 5057500000, 5072800000, 5088200000, 5103500000, 5118800000, 5134100000, 5149500000,
  5164800000, 5180100000, 5195400000, 5210800000, 5226100000, 5241400000, 5256700000, 5272000000,
  5287300000, 5302600000, 5317900000, 5333200000, 5348500000, 5363800000, 5379100000, 5394400000,
  5409700000, 5425000000, 5440200000, 5455500000, 5470800000, 5486000000, 5501300000, 5516500000,
  5531800000, 5547000000, 5562300000, 5577500000, 5592700000, 5608000000, 5623200000, 5638400000,
  5653600000, 5668800000, 5684000000, 5699200000, 5714300000, 5729500000, 5744700000, 5759800000,
  5775000000, 5790100000, 5805300000, 5820400000, 5835500000, 5850600000, 5865700000, 5880800000,
  5895900000, 5911000000, 5926100000, 5941100000, 5956200000, 5971200000, 5986300000, 6001300000,
  6016300000, 6031300000, 6046300000, 6061300000, 6076300000, 6091200000, 6106200000, 6121100000,
  6136100000, 6151000000, 6165900000, 6180800000, 6195700000, 6210600000, 6225500000, 6240300000,
  6255200000, 6270000000, 6284800000, 6299600000, 6314400000, 6329200000, 6344000000, 6358800000,
  6373500000, 6388300000, 6403000000, 6417700000, 6432400000, 6447100000, 6461700000, 6476400000,
  6491000000, 6505700000, 6520300000, 6534900000, 6549500000, 6564000000, 6578600000, 6593100000,
  6607700000, 6622200000, 6636700000, 6651100000, 6665600000, 6680000000, 6694500000, 6708900000,
  6723300000, 6737700000, 6752100000, 6766400000, 6780700000, 6795100000, 6809400000, 6823600000,
  6837900000, 6852200000, 6866400000, 6880600000, 6894800000, 6909000000, 6923200000, 6937300000,
  6951400000, 6965500000, 6979600000, 6993700000, 7007700000, 7021800000, 7035800000, 7049800000,
  7063800000, 7077700000, 7091600000, 7105600000, 7119500000, 7133300000, 7147200000, 7161000000,
  7174800000, 7188600000, 7202400000, 7216200000, 7229900000, 7243600000, 7257300000, 7271000000,
  7284600000, 7298300000, 7311900000, 7325400000, 7339000000, 7352500000, 7366100000, 7379600000,
  7393000000, 7406500000, 7419900000, 7433300000, 7446700000, 7460100000, 7473400000, 7486700000,
  7500000000, 7513300000, 7526500000, 7539700000, 7552900000, 7566100000, 7579200000, 7592400000,
  7605500000, 7618500000, 7631600000, 7644600000, 7657600000, 7670600000, 7683500000, 7696500000,
  7709400000, 7722200000, 7735100000, 7747900000, 7760700000, 7773500000, 7786200000, 7798900000,
  7811600000, 7824300000, 7836900000, 7849500000, 7862100000, 7874700000, 7887200000, 7899700000,
  7912200000, 7924600000, 7937100000, 7949500000, 7961800000, 7974200000, 7986500000, 7998800000,
  8011000000, 8023200000, 8035400000, 8047600000, 8059700000, 8071900000, 8083900000, 8096000000,
  8108000000, 8120000000, 8132000000, 8143900000, 8155800000, 8167700000, 8179600000, 8191400000,
  8203200000, 8214900000, 8226600000, 8238300000, 8250000000, 8261600000, 8273200000, 8284800000,
  8296400000, 8307900000, 8319400000, 8330800000, 8342200000, 8353600000, 8365000000, 8376300000,
  8387600000, 8398900000, 8410100000, 8421300000, 8432400000, 8443600000, 8454700000, 8465700000,
  8476800000, 8487800000, 8498800000, 8509700000, 8520600000, 8531500000, 8542300000, 8553100000,
  8563900000, 8574600000, 8585300000, 8596000000, 8606600000, 8617200000, 8627800000, 8638300000,
  8648800000, 8659300000, 8669700000, 8680100000, 8690500000, 8700800000, 8711100000, 8721400000,
  8731600000, 8741800000, 8751900000, 8762000000, 8772100000, 8782200000, 8792200000, 8802200000,
  8812100000, 8822000000, 8831900000, 8841700000, 8851500000, 8861300000, 8871000000, 8880700000,
  8890300000, 8899900000, 8909500000, 8919000000, 8928500000, 8938000000, 8947400000, 8956800000,
  8966200000, 8975500000, 8984800000, 8994000000, 9003200000, 9012400000, 9021500000, 9030600000,
  9039700000, 9048700000, 9057700000, 9066600000, 9075500000, 9084400000, 9093200000, 9102000000,
  9110700000, 9119400000, 9128100000, 9136700000, 9145300000, 9153900000, 9162400000, 9170900000,
  9179300000, 9187700000, 9196100000, 9204400000, 9212700000, 9220900000, 9229100000, 9237300000,
  9245400000, 9253500000, 9261500000, 9269500000, 9277500000, 9285400000, 9293300000, 9301100000,
  9308900000, 9316600000, 9324400000, 9332000000, 9339700000, 9347300000, 9354800000, 9362300000,
  9369800000, 9377200000, 9384600000, 9392000000, 9399300000, 9406600000, 9413800000, 9421000000,
  9428100000, 9435200000, 9442300000, 9449300000, 9456300000, 9463200000, 9470100000, 9476900000,
  9483700000, 9490500000, 9497200000, 9503900000, 9510500000, 9517100000, 9523700000, 9530200000,
  9536700000, 9543100000, 9549500000, 9555800000, 9562100000, 9568400000, 9574600000, 9580700000,
  9586900000, 9592900000, 9599000000, 9605000000, 9610900000, 9616800000, 9622700000, 9628500000,
  9634300000, 9640000000, 9645700000, 9651400000, 9657000000, 9662500000, 9668000000, 9673500000,
  9678900000, 9684300000, 9689700000, 9695000000, 9700200000, 9705400000, 9710600000, 9715700000,
  9720800000, 9725800000, 9730800000, 9735700000, 9740600000, 9745500000, 9750300000, 9755000000,
  9759800000, 9764400000, 9769100000, 9773600000, 9778200000, 9782700000, 9787100000, 9791500000,
  9795900000, 9800200000, 9804500000, 9808700000, 9812900000, 9817000000, 9821100000, 9825100000,
  9829100000, 9833100000, 9837000000, 9840900000, 9844700000, 9848400000, 9852200000, 9855800000,
  9859500000, 9863100000, 9866600000, 9870100000, 9873500000, 9876900000, 9880300000, 9883600000,
  9886900000, 9890100000, 9893300000, 9896400000, 9899500000, 9902500000, 9905500000, 9908500000,
  9911400000, 9914200000, 9917000000, 9919800000, 9922500000, 9925100000, 9927800000, 9930300000,
  9932900000, 9935300000, 9937800000, 9940200000, 9942500000, 9944800000, 9947100000, 9949300000,
  9951400000, 9953500000, 9955600000, 9957600000, 9959600000, 9961500000, 9963400000, 9965200000,
  9967000000, 9968700000, 9970400000, 9972000000, 9973600000, 9975200000, 9976700000, 9978100000,
  9979600000, 9980900000, 9982200000, 9983500000, 9984700000, 9985900000, 9987000000, 9988100000,
  9989100000, 9990100000, 9991100000, 9992000000, 9992800000, 9993600000, 9994400000, 9995100000,
  9995700000, 9996300000, 9996900000, 9997400000, 9997900000, 9998300000, 9998700000, 9999000000,
  9999300000, 9999500000, 9999700000, 9999900000, 9999900000, 10000000000, 10000000000, 9999900000,
  9999900000, 9999700000, 9999500000, 9999300000, 9999000000, 9998700000, 9998300000, 9997900000,
  9997400000, 9996900000, 9996300000, 9995700000, 9995100000, 9994400000, 9993600000, 9992800000,
  9992000000, 9991100000, 9990100000, 9989100000, 9988100000, 9987000000, 9985900000, 9984700000,
  9983500000, 9982200000, 9980900000, 9979600000, 9978100000, 9976700000, 9975200000, 9973600000,
  9972000000, 9970400000, 9968700000, 9967000000, 9965200000, 9963400000, 9961500000, 9959600000,
  9957600000, 9955600000, 9953500000, 9951400000, 9949300000, 9947100000, 9944800000, 9942500000,
  9940200000, 9937800000, 9935300000, 9932900000, 9930300000, 9927800000, 9925100000, 9922500000,
  9919800000, 9917000000, 9914200000, 9911400000, 9908500000, 9905500000, 9902500000, 9899500000,
  9896400000, 9893300000, 9890100000, 9886900000, 9883600000, 9880300000, 9876900000, 9873500000,
  9870100000, 9866600000, 9863100000, 9859500000, 9855800000, 9852200000, 9848400000, 9844700000,
  9840900000, 9837000000, 9833100000, 9829100000, 9825100000, 9821100000, 9817000000, 9812900000,
  9808700000, 9804500000, 9800200000, 9795900000, 9791500000, 9787100000, 9782700000, 9778200000,
  9773600000, 9769100000, 9764400000, 9759800000, 9755000000, 9750300000, 9745500000, 9740600000,
  9735700000, 9730800000, 9725800000, 9720800000, 9715700000, 9710600000, 9705400000, 9700200000,
  9695000000, 9689700000, 9684300000, 9678900000, 9673500000, 9668000000, 9662500000, 9657000000,
  9651400000, 9645700000, 9640000000, 9634300000, 9628500000, 9622700000, 9616800000, 9610900000,
  9605000000, 9599000000, 9592900000, 9586900000, 9580700000, 9574600000, 9568400000, 9562100000,
  9555800000, 9549500000, 9543100000, 9536700000, 9530200000, 9523700000, 9517100000, 9510500000,
  9503900000, 9497200000, 9490500000, 9483700000, 9476900000, 9470100000, 9463200000, 9456300000,
  9449300000, 9442300000, 9435200000, 9428100000, 9421000000, 9413800000, 9406600000, 9399300000,
  9392000000, 9384600000, 9377200000, 9369800000, 9362300000, 9354800000, 9347300000, 9339700000,
  9332000000, 9324400000, 9316600000, 9308900000, 9301100000, 9293300000, 9285400000, 9277500000,
  9269500000, 9261500000, 9253500000, 9245400000, 9237300000, 9229100000, 9220900000, 9212700000,
  9204400000, 9196100000, 9187700000, 9179300000, 9170900000, 9162400000, 9153900000, 9145300000,
  9136700000, 9128100000, 9119400000, 9110700000, 9102000000, 9093200000, 9084400000, 9075500000,
  9066600000, 9057700000, 9048700000, 9039700000, 9030600000, 9021500000, 9012400000, 9003200000,
  8994000000, 8984800000, 8975500000, 8966200000, 8956800000, 8947400000, 8938000000, 8928500000,
  8919000000, 8909500000, 8899900000, 8890300000, 8880700000, 8871000000, 8861300000, 8851500000,
  8841700000, 8831900000, 8822000000, 8812100000, 8802200000, 8792200000, 8782200000, 8772100000,
  8762000000, 8751900000, 8741800000, 8731600000, 8721400000, 8711100000, 8700800000, 8690500000,
  8680100000, 8669700000, 8659300000, 8648800000, 8638300000, 8627800000, 8617200000, 8606600000,
  8596000000, 8585300000, 8574600000, 8563900000, 8553100000, 8542300000, 8531500000, 8520600000,
  8509700000, 8498800000, 8487800000, 8476800000, 8465700000, 8454700000, 8443600000, 8432400000,
  8421300000, 8410100000, 8398900000, 8387600000, 8376300000, 8365000000, 8353600000, 8342200000,
  8330800000, 8319400000, 8307900000, 8296400000, 8284800000, 8273200000, 8261600000, 8250000000,
  8238300000, 8226600000, 8214900000, 8203200000, 8191400000, 8179600000, 8167700000, 8155800000,
  8143900000, 8132000000, 8120000000, 8108000000, 8096000000, 8083900000, 8071900000, 8059700000,
  8047600000, 8035400000, 8023200000, 8011000000, 7998800000, 7986500000, 7974200000, 7961800000,
  7949500000, 7937100000, 7924600000, 7912200000, 7899700000, 7887200000, 7874700000, 7862100000,
  7849500000, 7836900000, 7824300000, 7811600000, 7798900000, 7786200000, 7773500000, 7760700000,
  7747900000, 7735100000, 7722200000, 7709400000, 7696500000, 7683500000, 7670600000, 7657600000,
  7644600000, 7631600000, 7618500000, 7605500000, 7592400000, 7579200000, 7566100000, 7552900000,
  7539700000, 7526500000, 7513300000, 7500000000, 7486700000, 7473400000, 7460100000, 7446700000,
  7433300000, 7419900000, 7406500000, 7393000000, 7379600000, 7366100000, 7352500000, 7339000000,
  7325400000, 7311900000, 7298300000, 7284600000, 7271000000, 7257300000, 7243600000, 7229900000,
  7216200000, 7202400000, 7188600000, 7174800000, 7161000000, 7147200000, 7133300000, 7119500000,
  7105600000, 7091600000, 7077700000, 7063800000, 7049800000, 7035800000, 7021800000, 7007700000,
  6993700000, 6979600000, 6965500000, 6951400000, 6937300000, 6923200000, 6909000000, 6894800000,
  6880600000, 6866400000, 6852200000, 6837900000, 6823600000, 6809400000, 6795100000, 6780700000,
  6766400000, 6752100000, 6737700000, 6723300000, 6708900000, 6694500000, 6680000000, 6665600000,
  6651100000, 6636700000, 6622200000, 6607700000, 6593100000, 6578600000, 6564000000, 6549500000,
  6534900000, 6520300000, 6505700000, 6491000000, 6476400000, 6461700000, 6447100000, 6432400000,
  6417700000, 6403000000, 6388300000, 6373500000, 6358800000, 6344000000, 6329200000, 6314400000,
  6299600000, 6284800000, 6270000000, 6255200000, 6240300000, 6225500000, 6210600000, 6195700000,
  6180800000, 6165900000, 6151000000, 6136100000, 6121100000, 6106200000, 6091200000, 6076300000,
  6061300000, 6046300000, 6031300000, 6016300000, 6001300000, 5986300000, 5971200000, 5956200000,
  5941100000, 5926100000, 5911000000, 5895900000, 5880800000, 5865700000, 5850600000, 5835500000,
  5820400000, 5805300000, 5790100000, 5775000000, 5759800000, 5744700000, 5729500000, 5714300000,
  5699200000, 5684000000, 5668800000, 5653600000, 5638400000, 5623200000, 5608000000, 5592700000,
  5577500000, 5562300000, 5547000000, 5531800000, 5516500000, 5501300000, 5486000000, 5470800000,
  5455500000, 5440200000, 5425000000, 5409700000, 5394400000, 5379100000, 5363800000, 5348500000,
  5333200000, 5317900000, 5302600000, 5287300000, 5272000000, 5256700000, 5241400000, 5226100000,
  5210800000, 5195400000, 5180100000, 5164800000, 5149500000, 5134100000, 5118800000, 5103500000,
  5088200000, 5072800000, 5057500000, 5042200000, 5026800000, 5011500000, 4996200000, 4980800000,
  4965500000, 4950200000, 4934800000, 4919500000, 4904200000, 4888800000, 4873500000, 4858200000,
  4842900000, 4827500000, 4812200000, 4796900000, 4781600000, 4766300000, 4751000000, 4735600000,
  4720300000, 4705000000, 4689700000, 4674400000, 4659100000, 4643800000, 4628500000, 4613200000,
  4598000000, 4582700000, 4567400000, 4552100000, 4536900000, 4521600000, 4506300000, 4491100000,
  4475800000, 4460600000, 4445300000, 4430100000, 4414900000, 4399700000, 4384400000, 4369200000,
  4354000000, 4338800000, 4323600000, 4308400000, 4293300000, 4278100000, 4262900000, 4247800000,
  4232600000, 4217400000, 4202300000, 4187200000, 4172100000, 4156900000, 4141800000, 4126700000,
  4111600000, 4096500000, 4081500000, 4066400000, 4051300000, 4036300000, 4021300000, 4006200000,
  3991200000, 3976200000, 3961200000, 3946200000, 3931200000, 3916200000, 3901300000, 3886300000,
  3871400000, 3856500000, 3841500000, 3826600000, 3811700000, 3796800000, 3782000000, 3767100000,
  3752200000, 3737400000, 3722600000, 3707800000, 3693000000, 3678200000, 3663400000, 3648600000,
  3633900000, 3619100000, 3604400000, 3589700000, 3575000000, 3560300000, 3545600000, 3530900000,
  3516300000, 3501700000, 3487000000, 3472400000, 3457800000, 3443300000, 3428700000, 3414100000,
  3399600000, 3385100000, 3370600000, 3356100000, 3341600000, 3327200000, 3312700000, 3298300000,
  3283900000, 3269500000, 3255100000, 3240800000, 3226400000, 3212100000, 3197800000, 3183500000,
  3169200000, 3155000000, 3140700000, 3126500000, 3112300000, 3098100000, 3083900000, 3069800000,
  3055600000, 3041500000, 3027400000, 3013300000, 2999300000, 2985200000, 2971200000, 2957200000,
  2943200000, 2929300000, 2915300000, 2901400000, 2887500000, 2873600000, 2859700000, 2845900000,
  2832100000, 2818300000, 2804500000, 2790700000, 2777000000, 2763200000, 2749500000, 2735900000,
  2722200000, 2708600000, 2694900000, 2681300000, 2667800000, 2654200000, 2640700000, 2627200000,
  2613700000, 2600200000, 2586800000, 2573400000, 2560000000, 2546600000, 2533300000, 2519900000,
  2506600000, 2493400000, 2480100000, 2466900000, 2453700000, 2440500000, 2427300000, 2414200000,
  2401100000, 2388000000, 2374900000, 2361900000, 2348900000, 2335900000, 2322900000, 2310000000,
  2297100000, 2284200000, 2271300000, 2258500000, 2245700000, 2232900000, 2220200000, 2207400000,
  2194700000, 2182000000, 2169400000, 2156800000, 2144200000, 2131600000, 2119000000, 2106500000,
  2094000000, 2081600000, 2069100000, 2056700000, 2044400000, 2032000000, 2019700000, 2007400000,
  1995100000, 1982900000, 1970700000, 1958500000, 1946300000, 1934200000, 1922100000, 1910000000,
  1898000000, 1886000000, 1874000000, 1862000000, 1850100000, 1838200000, 1826400000, 1814500000,
  1802700000, 1791000000, 1779200000, 1767500000, 1755800000, 1744200000, 1732500000, 1721000000,
  1709400000, 1697900000, 1686400000, 1674900000, 1663500000, 1652100000, 1640700000, 1629400000,
  1618000000, 1606800000, 1595500000, 1584300000, 1573100000, 1562000000, 1550900000, 1539800000,
  1528700000, 1517700000, 1506700000, 1495800000, 1484900000, 1474000000, 1463100000, 1452300000,
  1441500000, 1430700000, 1420000000, 1409300000, 1398700000, 1388100000, 1377500000, 1366900000,
  1356400000, 1345900000, 1335500000, 1325100000, 1314700000, 1304300000, 1294000000, 1283800000,
  1273500000, 1263300000, 1253100000, 1243000000, 1232900000, 1222800000, 1212800000, 1202800000,
  1192900000, 1183000000, 1173100000, 1163200000, 1153400000, 1143600000, 1133900000, 1124200000,
  1114500000, 1104900000, 1095300000, 1085700000, 1076200000, 1066700000, 1057300000, 1047900000,
  1038500000, 1029200000, 1019900000, 1010600000, 1001400000, 992180000, 983030000, 973920000,
  964850000, 955820000, 946820000, 937860000, 928940000, 920060000, 911210000, 902410000,
  893640000, 884910000, 876220000, 867570000, 858960000, 850390000, 841850000, 833360000,
  824900000, 816490000, 808110000, 799770000, 791470000, 783210000, 775000000, 766820000,
  758680000, 750580000, 742520000, 734500000, 726520000, 718580000, 710680000, 702820000,
  695000000, 687220000, 679490000, 671790000, 664130000, 656520000, 648950000, 641410000,
  633920000, 626470000, 619060000, 611690000, 604360000, 597070000, 589830000, 582630000,
  575460000, 568340000, 561260000, 554230000, 547230000, 540280000, 533370000, 526500000,
  519670000, 512880000, 506140000, 499440000, 492780000, 486170000, 479590000, 473060000,
  466570000, 460130000, 453720000, 447360000, 441050000, 434770000, 428540000, 422350000,
  416200000, 410100000, 404040000, 398030000, 392050000, 386120000, 380240000, 374390000,
  368590000, 362840000, 357120000, 351460000, 345830000, 340250000, 334710000, 329220000,
  323770000, 318360000, 313000000, 307680000, 302410000, 297180000, 292000000, 286860000,
  281760000, 276710000, 271700000, 266740000, 261820000, 256940000, 252110000, 247330000,
  242590000, 237890000, 233240000, 228640000, 224080000, 219560000, 215090000, 210660000,
  206280000, 201950000, 197660000, 193410000, 189210000, 185050000, 180940000, 176880000,
  172860000, 168890000, 164960000, 161070000, 157240000, 153440000, 149700000, 146000000,
  142340000, 138730000, 135170000, 131650000, 128180000, 124750000, 121370000, 118040000,
  114750000, 111500000, 108310000, 105160000, 102050000, 98993000, 95980000, 93013000, 90093000,
  87219000, 84390000, 81608000, 78873000, 76183000, 73540000, 70943000, 68393000, 65889000,
  63431000, 61020000, 58655000, 56337000, 54065000, 51839000, 49661000, 47528000, 45443000,
  43403000, 41411000, 39465000, 37566000, 35713000, 33907000, 32148000, 30435000, 28770000,
  27151000, 25578000, 24053000, 22574000, 21142000, 19757000, 18419000, 17128000, 15883000,
  14685000, 13535000, 12431000, 11374000, 10363000, 9400300, 8484000, 7614700, 6792300, 6016800,
  5288400, 4606900, 3972300, 3384800, 2844200, 2350600, 1904000, 1504400, 1151800, 846260, 587690,
  376120, 211570, 94032, 23508]

/-- `HANNING_WINDOW_2048_MULTIPLIERS`, before each literal is rounded. -/
def hanningWindow2048Multipliers (index : Nat) : Rat := tenBillionths.getD index 0 / 10 ^ 10

theorem tenBillionths_length : tenBillionths.length = 2048 := by decide +kernel

end Hanning
