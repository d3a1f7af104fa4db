/-!
How the characters of the Latin, Greek and Cyrillic scripts, digits and signs sort. Every character
has a list of weights; a weight holds the rank of the character itself, that of its accents and that
of its case.
-/

namespace LineCensus.Text.CollationTable

/-- The weights of characters, in increasing order of the characters. The rank of a character counts
4096, that of its accents 16 and that of its case one. A character without weights does not count. -/
def weights : Array (Nat × List Nat) := #[
  (0, []), (1, []), (2, []), (3, []), (4, []), (5, []), (6, []), (7, []), (8, []), (9, [4113]),
  (10, [8209]), (11, [12305]), (12, [16401]), (13, [20497]), (14, []), (15, []), (16, []),
  (17, []), (18, []), (19, []), (20, []), (21, []), (22, []), (23, []), (24, []), (25, []),
  (26, []), (27, []), (28, []), (29, []), (30, []), (31, []), (32, [36881]), (33, [90129]),
  (34, [147473]), (35, [241681]), (36, [462865]), (37, [245777]), (38, [237585]), (39, [118801]),
  (40, [176145]), (41, [180241]), (42, [225297]), (43, [397329]), (44, [77841]), (45, [53265]),
  (46, [110609]), (47, [229393]), (48, [479249]), (49, [483345]), (50, [487441]), (51, [491537]),
  (52, [495633]), (53, [499729]), (54, [503825]), (55, [507921]), (56, [512017]), (57, [516113]),
  (58, [86033]), (59, [81937]), (60, [413713]), (61, [417809]), (62, [421905]), (63, [98321]),
  (64, [221201]), (65, [520211]), (66, [524307]), (67, [528403]), (68, [532499]), (69, [536595]),
  (70, [540691]), (71, [548883]), (72, [552979]), (73, [557075]), (74, [565267]), (75, [569363]),
  (76, [573459]), (77, [577555]), (78, [581651]), (79, [589843]), (80, [593939]), (81, [598035]),
  (82, [606227]), (83, [610323]), (84, [614419]), (85, [622611]), (86, [626707]), (87, [630803]),
  (88, [634899]), (89, [638995]), (90, [643091]), (91, [184337]), (92, [233489]), (93, [188433]),
  (94, [327697]), (95, [45073]), (96, [315409]), (97, [520209]), (98, [524305]), (99, [528401]),
  (100, [532497]), (101, [536593]), (102, [540689]), (103, [548881]), (104, [552977]),
  (105, [557073]), (106, [565265]), (107, [569361]), (108, [573457]), (109, [577553]),
  (110, [581649]), (111, [589841]), (112, [593937]), (113, [598033]), (114, [606225]),
  (115, [610321]), (116, [614417]), (117, [622609]), (118, [626705]), (119, [630801]),
  (120, [634897]), (121, [638993]), (122, [643089]), (123, [192529]), (124, [430097]),
  (125, [196625]), (126, [438289]), (127, []), (128, []), (129, []), (130, []), (131, []),
  (132, []), (133, [24593]), (134, []), (135, []), (136, []), (137, []), (138, []), (139, []),
  (140, []), (141, []), (142, []), (143, []), (144, []), (145, []), (146, []), (147, []),
  (148, []), (149, []), (150, []), (151, []), (152, []), (153, []), (154, []), (155, []),
  (156, []), (157, []), (158, []), (159, []), (160, [36887]), (161, [94225]), (162, [458769]),
  (163, [466961]), (164, [454673]), (165, [471057]), (166, [434193]), (167, [213009]),
  (168, [344081]), (169, [385041]), (170, [520213]), (171, [167953]), (172, [426001]), (173, []),
  (174, [389137]), (175, [331793]), (176, [380945]), (177, [401425]), (178, [487445]),
  (179, [491541]), (180, [319505]), (181, [720914]), (182, [217105]), (183, [114705]),
  (184, [356369]), (185, [483349]), (186, [589845]), (187, [172049]),
  (188, [483352, 446488, 495640]), (189, [483352, 446488, 487448]),
  (190, [491544, 446488, 495640]), (191, [102417]), (192, [520211, 97]), (193, [520211, 81]),
  (194, [520211, 129]), (195, [520211, 225]), (196, [520211, 193]), (197, [520211, 161]),
  (198, [520212, 690, 536596]), (199, [528403, 273]), (200, [536595, 97]), (201, [536595, 81]),
  (202, [536595, 129]), (203, [536595, 193]), (204, [557075, 97]), (205, [557075, 81]),
  (206, [557075, 129]), (207, [557075, 193]), (208, [532500, 690]), (209, [581651, 225]),
  (210, [589843, 97]), (211, [589843, 81]), (212, [589843, 129]), (213, [589843, 225]),
  (214, [589843, 193]), (215, [409617]), (216, [589843, 257]), (217, [622611, 97]),
  (218, [622611, 81]), (219, [622611, 129]), (220, [622611, 193]), (221, [638995, 81]),
  (222, [647187]), (223, [610322, 690, 610322]), (224, [520209, 97]), (225, [520209, 81]),
  (226, [520209, 129]), (227, [520209, 225]), (228, [520209, 193]), (229, [520209, 161]),
  (230, [520210, 690, 536594]), (231, [528401, 273]), (232, [536593, 97]), (233, [536593, 81]),
  (234, [536593, 129]), (235, [536593, 193]), (236, [557073, 97]), (237, [557073, 81]),
  (238, [557073, 129]), (239, [557073, 193]), (240, [532498, 690]), (241, [581649, 225]),
  (242, [589841, 97]), (243, [589841, 81]), (244, [589841, 129]), (245, [589841, 225]),
  (246, [589841, 193]), (247, [405521]), (248, [589841, 257]), (249, [622609, 97]),
  (250, [622609, 81]), (251, [622609, 129]), (252, [622609, 193]), (253, [638993, 81]),
  (254, [647185]), (255, [638993, 193]), (256, [520211, 305]), (257, [520209, 305]),
  (258, [520211, 113]), (259, [520209, 113]), (260, [520211, 289]), (261, [520209, 289]),
  (262, [528403, 81]), (263, [528401, 81]), (264, [528403, 129]), (265, [528401, 129]),
  (266, [528403, 241]), (267, [528401, 241]), (268, [528403, 145]), (269, [528401, 145]),
  (270, [532499, 145]), (271, [532497, 145]), (272, [532499, 369]), (273, [532497, 369]),
  (274, [536595, 305]), (275, [536593, 305]), (276, [536595, 113]), (277, [536593, 113]),
  (278, [536595, 241]), (279, [536593, 241]), (280, [536595, 289]), (281, [536593, 289]),
  (282, [536595, 145]), (283, [536593, 145]), (284, [548883, 129]), (285, [548881, 129]),
  (286, [548883, 113]), (287, [548881, 113]), (288, [548883, 241]), (289, [548881, 241]),
  (290, [548883, 273]), (291, [548881, 273]), (292, [552979, 129]), (293, [552977, 129]),
  (294, [552979, 369]), (295, [552977, 369]), (296, [557075, 225]), (297, [557073, 225]),
  (298, [557075, 305]), (299, [557073, 305]), (300, [557075, 113]), (301, [557073, 113]),
  (302, [557075, 289]), (303, [557073, 289]), (304, [557075, 241]), (305, [561169]),
  (306, [557076, 565268]), (307, [557074, 565266]), (308, [565267, 129]), (309, [565265, 129]),
  (310, [569363, 273]), (311, [569361, 273]), (312, [602129]), (313, [573459, 81]),
  (314, [573457, 81]), (315, [573459, 273]), (316, [573457, 273]), (317, [573459, 145]),
  (318, [573457, 145]), (319, [573459, 689]), (320, [573457, 689]), (321, [573459, 369]),
  (322, [573457, 369]), (323, [581651, 81]), (324, [581649, 81]), (325, [581651, 273]),
  (326, [581649, 273]), (327, [581651, 145]), (328, [581649, 145]), (329, [651282, 581650]),
  (330, [585747]), (331, [585745]), (332, [589843, 305]), (333, [589841, 305]),
  (334, [589843, 113]), (335, [589841, 113]), (336, [589843, 209]), (337, [589841, 209]),
  (338, [589844, 690, 536596]), (339, [589842, 690, 536594]), (340, [606227, 81]),
  (341, [606225, 81]), (342, [606227, 273]), (343, [606225, 273]), (344, [606227, 145]),
  (345, [606225, 145]), (346, [610323, 81]), (347, [610321, 81]), (348, [610323, 129]),
  (349, [610321, 129]), (350, [610323, 273]), (351, [610321, 273]), (352, [610323, 145]),
  (353, [610321, 145]), (354, [614419, 273]), (355, [614417, 273]), (356, [614419, 145]),
  (357, [614417, 145]), (358, [618515]), (359, [618513]), (360, [622611, 225]),
  (361, [622609, 225]), (362, [622611, 305]), (363, [622609, 305]), (364, [622611, 113]),
  (365, [622609, 113]), (366, [622611, 161]), (367, [622609, 161]), (368, [622611, 209]),
  (369, [622609, 209]), (370, [622611, 289]), (371, [622609, 289]), (372, [630803, 129]),
  (373, [630801, 129]), (374, [638995, 129]), (375, [638993, 129]), (376, [638995, 193]),
  (377, [643091, 81]), (378, [643089, 81]), (379, [643091, 241]), (380, [643089, 241]),
  (381, [643091, 145]), (382, [643089, 145]), (383, [610322, 706]), (402, [544785]),
  (461, [520211, 145]), (462, [520209, 145]), (463, [557075, 145]), (464, [557073, 145]),
  (465, [589843, 145]), (466, [589841, 145]), (467, [622611, 145]), (468, [622609, 145]),
  (469, [622611, 193, 305]), (470, [622609, 193, 305]), (471, [622611, 193, 81]),
  (472, [622609, 193, 81]), (473, [622611, 193, 145]), (474, [622609, 193, 145]),
  (475, [622611, 193, 97]), (476, [622609, 193, 97]), (536, [610323, 561]), (537, [610321, 561]),
  (538, [614419, 561]), (539, [614417, 561]), (710, [372753]), (711, [376849]), (728, [335889]),
  (729, [339985]), (730, [348177]), (731, [360465]), (732, [323601]), (733, [352273]),
  (768, [97]), (769, [81]), (770, [129]), (771, [225]), (772, [305]), (773, [385]), (774, [113]),
  (775, [241]), (776, [193]), (777, [401]), (778, [161]), (779, [209]), (780, [145]),
  (781, [321]), (782, [321]), (783, [417]), (784, [433]), (785, [449]), (786, [321]), (787, [49]),
  (788, [65]), (789, [321]), (790, [337]), (791, [337]), (792, [337]), (793, [337]), (794, [321]),
  (795, [465]), (796, [337]), (797, [337]), (798, [337]), (799, [337]), (800, [337]),
  (801, [481]), (802, [497]), (803, [513]), (804, [529]), (805, [545]), (806, [561]),
  (807, [273]), (808, [289]), (809, [337]), (810, [337]), (811, [337]), (812, [337]),
  (813, [577]), (814, [593]), (815, [337]), (816, [609]), (817, [625]), (818, [33]), (819, [337]),
  (820, [641]), (821, [369]), (822, [353]), (823, [353]), (824, [257]), (825, [657]),
  (826, [337]), (827, [337]), (828, [337]), (829, [321]), (830, [321]), (831, [321]), (832, [97]),
  (833, [81]), (834, [177]), (835, [49]), (836, [193, 81]), (837, [673]), (880, [692243]),
  (881, [692241]), (882, [806931]), (883, [806929]), (884, [364561]), (885, [368657]),
  (886, [679955]), (887, [679953]), (890, [704530]), (891, [770065]), (892, [765969]),
  (893, [774161]), (894, [81937]), (895, [708627]), (900, [319505]), (901, [344081, 81]),
  (902, [655379, 81]), (903, [114705]), (904, [671763, 81]), (905, [696339, 81]),
  (906, [704531, 81]), (908, [733203, 81]), (910, [782355, 81]), (911, [798739, 81]),
  (912, [704529, 193, 81]), (913, [655379]), (914, [659475]), (915, [663571]), (916, [667667]),
  (917, [671763]), (918, [688147]), (919, [696339]), (920, [700435]), (921, [704531]),
  (922, [712723]), (923, [716819]), (924, [720915]), (925, [725011]), (926, [729107]),
  (927, [733203]), (928, [737299]), (929, [753683]), (931, [761875]), (932, [778259]),
  (933, [782355]), (934, [786451]), (935, [790547]), (936, [794643]), (937, [798739]),
  (938, [704531, 193]), (939, [782355, 193]), (940, [655377, 81]), (941, [671761, 81]),
  (942, [696337, 81]), (943, [704529, 81]), (944, [782353, 193, 81]), (945, [655377]),
  (946, [659473]), (947, [663569]), (948, [667665]), (949, [671761]), (950, [688145]),
  (951, [696337]), (952, [700433]), (953, [704529]), (954, [712721]), (955, [716817]),
  (956, [720913]), (957, [725009]), (958, [729105]), (959, [733201]), (960, [737297]),
  (961, [753681]), (962, [761878]), (963, [761873]), (964, [778257]), (965, [782353]),
  (966, [786449]), (967, [790545]), (968, [794641]), (969, [798737]), (970, [704529, 193]),
  (971, [782353, 193]), (972, [733201, 81]), (973, [782353, 81]), (974, [798737, 81]),
  (975, [712724, 655378, 704530]), (976, [659474]), (977, [700434]), (978, [782356]),
  (979, [782356, 81]), (980, [782356, 193]), (981, [786450]), (982, [737298]),
  (983, [712722, 655378, 704530]), (984, [749587]), (985, [749585]), (986, [684051]),
  (987, [684049]), (988, [675859]), (989, [675857]), (990, [745491]), (991, [745489]),
  (992, [802835]), (993, [802833]), (994, [815123]), (995, [815121]), (996, [819219]),
  (997, [819217]), (998, [823315]), (999, [823313]), (1000, [827411]), (1001, [827409]),
  (1002, [831507]), (1003, [831505]), (1004, [835603]), (1005, [835601]), (1006, [839699]),
  (1007, [839697]), (1008, [712722]), (1009, [753682]), (1010, [761874]), (1011, [708625]),
  (1012, [700436]), (1013, [671762]), (1014, [393233]), (1015, [811027]), (1016, [811025]),
  (1017, [761876]), (1018, [741395]), (1019, [741393]), (1020, [757777]), (1021, [770067]),
  (1022, [765971]), (1023, [774163]), (1024, [868371, 97]), (1025, [868371, 193]),
  (1026, [864275]), (1027, [856083, 81]), (1028, [872467]), (1029, [884755]), (1030, [892947]),
  (1031, [892947, 193]), (1032, [901139]), (1033, [913427]), (1034, [925715]), (1035, [950291]),
  (1036, [905235, 81]), (1037, [888851, 97]), (1038, [954387, 113]), (1039, [974867]),
  (1040, [843795]), (1041, [847891]), (1042, [851987]), (1043, [856083]), (1044, [860179]),
  (1045, [868371]), (1046, [876563]), (1047, [880659]), (1048, [888851]), (1049, [897043]),
  (1050, [905235]), (1051, [909331]), (1052, [917523]), (1053, [921619]), (1054, [929811]),
  (1055, [933907]), (1056, [938003]), (1057, [942099]), (1058, [946195]), (1059, [954387]),
  (1060, [958483]), (1061, [962579]), (1062, [966675]), (1063, [970771]), (1064, [978963]),
  (1065, [983059]), (1066, [987155]), (1067, [991251]), (1068, [995347]), (1069, [999443]),
  (1070, [1003539]), (1071, [1007635]), (1072, [843793]), (1073, [847889]), (1074, [851985]),
  (1075, [856081]), (1076, [860177]), (1077, [868369]), (1078, [876561]), (1079, [880657]),
  (1080, [888849]), (1081, [897041]), (1082, [905233]), (1083, [909329]), (1084, [917521]),
  (1085, [921617]), (1086, [929809]), (1087, [933905]), (1088, [938001]), (1089, [942097]),
  (1090, [946193]), (1091, [954385]), (1092, [958481]), (1093, [962577]), (1094, [966673]),
  (1095, [970769]), (1096, [978961]), (1097, [983057]), (1098, [987153]), (1099, [991249]),
  (1100, [995345]), (1101, [999441]), (1102, [1003537]), (1103, [1007633]), (1104, [868369, 97]),
  (1105, [868369, 193]), (1106, [864273]), (1107, [856081, 81]), (1108, [872465]),
  (1109, [884753]), (1110, [892945]), (1111, [892945, 193]), (1112, [901137]), (1113, [913425]),
  (1114, [925713]), (1115, [950289]), (1116, [905233, 81]), (1117, [888849, 97]),
  (1118, [954385, 113]), (1119, [974865]), (1168, [856084, 706]), (1169, [856082, 706]),
  (8192, [36882]), (8193, [36882]), (8194, [36882]), (8195, [36882]), (8196, [36882]),
  (8197, [36882]), (8198, [36882]), (8199, [36887]), (8200, [36882]), (8201, [36882]),
  (8202, [36882]), (8203, []), (8204, []), (8205, []), (8206, []), (8207, []), (8208, [57361]),
  (8209, [57367]), (8210, [61457]), (8211, [65553]), (8212, [69649]), (8213, [73745]),
  (8214, [208913]), (8215, [49169]), (8216, [122897]), (8217, [126993]), (8218, [131089]),
  (8219, [135185]), (8220, [151569]), (8221, [155665]), (8222, [159761]), (8223, [163857]),
  (8224, [258065]), (8225, [262161]), (8226, [266257]), (8227, [270353]), (8228, [110610]),
  (8229, [110610, 110610]), (8230, [110610, 110610, 110610]), (8231, [274449]), (8232, [28689]),
  (8233, [32785]), (8234, []), (8235, []), (8236, []), (8237, []), (8238, []), (8239, [36887]),
  (8240, [249873]), (8241, [253969]), (8242, [282641]), (8243, [282642, 282642]),
  (8244, [282642, 282642, 282642]), (8245, [286737]), (8246, [286738, 286738]),
  (8247, [286738, 286738, 286738]), (8248, [290833]), (8249, [139281]), (8250, [143377]),
  (8251, [294929]), (8252, [90130, 90130]), (8253, [106513]), (8254, [40977]), (8255, [299025]),
  (8256, [303121]), (8257, [307217]), (8258, [311313]), (8259, [278545]), (8260, [446481]),
  (8261, [200721]), (8262, [204817]), (8263, [98322, 98322]), (8264, [98322, 90130]),
  (8265, [90130, 98322]), (8364, [475153]), (8470, [581652, 589842]), (8482, [614421, 577557]),
  (8722, [442385]), (8734, [450577])]

/-- The rank behind which signs without weights of their own stand. -/
def lastSign : Nat := 107

/-- The rank behind which letters without weights of their own stand. -/
def lastLetter : Nat := 246

end LineCensus.Text.CollationTable
