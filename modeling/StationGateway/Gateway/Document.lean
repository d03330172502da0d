import StationGateway.Text.Split

/-!
# Documents

The document at the root, which says what there is, and the description of the interface. Both hold
a place for the URL of the gateway. -/

namespace StationGateway.Document

open Text

/-- A text with every occurrence of a word replaced. -/
def fill (word value text : String) : String :=
  String.ofList (replaceAll word.toList value.toList text.toList)

/-- The lines of the document at the root. -/
def rootLines : List String :=
  [
    "\x7b",
    "  \"description\": \"Open Data Hub mobility API. Read-only access to stations, data " ++
      "types, measurements, edges and events.\",",
    "  \"documentation\": \"__URL__/apispec\",",
    "  \"representations\": \x7b",
    "    \"flat\": \"__URL__/flat\",",
    "    \"tree\": \"__URL__/tree\",",
    "    \"flat,edge\": \"__URL__/flat,edge\",",
    "    \"tree,edge\": \"__URL__/tree,edge\",",
    "    \"flat,event\": \"__URL__/flat,event\",",
    "    \"tree,event\": \"__URL__/tree,event\"",
    "  \x7d,",
    "  \"examples\": \x7b",
    "    \"station types\": \"__URL__/flat\",",
    "    \"stations of a type\": \"__URL__/flat/ParkingStation?limit=10\",",
    "    \"stations with data types\": \"__URL__/tree/ParkingStation/*\",",
    "    \"latest measurements\": \"__URL__/flat/ParkingStation/occupied/latest\",",
    "    \"measurement history\": \"__URL__/flat/ParkingStation/occupied/2024-01-01/2024-01-02\",",
    "    \"station metadata history\": " ++
      "\"__URL__/flat/ParkingStation/metadata/history?from=2024-01-01\",",
    "    \"edges\": \"__URL__/flat,edge/LinkStation\",",
    "    \"latest events\": \"__URL__/tree,event/*/latest\"",
    "  \x7d,",
    "  \"parameters\": \x7b",
    "    \"limit\": \"maximum number of records, 200 by default, 0 or less disables the limit\",",
    "    \"offset\": \"number of records to skip, 0 by default\",",
    "    \"select\": \"comma separated list of attributes, all by default\",",
    "    \"where\": \"filter expression such as sname.eq.\\\"Parking Lot\\\" or " ++
      "and(mvalue.gt.10,tname.eq.occupied)\",",
    "    \"shownull\": \"include attributes with null values, false by default\",",
    "    \"distinct\": \"remove duplicate records, true by default\",",
    "    \"timezone\": \"time zone used to render timestamps, UTC by default\"",
    "  \x7d",
    "\x7d",
    ""
  ]

/-- The lines of the description of the interface. -/
def descriptionLines : List String :=
  [
    "openapi: 3.0.3",
    "info:",
    "  title: Open Data Hub Mobility API",
    "  description: Read-only access to stations, data types, measurements, edges and events.",
    "  version: \"2\"",
    "servers:",
    "  - url: __ODH_SERVER_URL__",
    "components:",
    "  parameters:",
    "    representation:",
    "      name: representation",
    "      in: path",
    "      required: true",
    "      description: \"'flat' or 'tree', optionally combined with 'node' (default), " ++
      "'edge' or 'event', e.g. 'tree,edge'\"",
    "      schema:",
    "        type: string",
    "    types:",
    "      name: types",
    "      in: path",
    "      required: true",
    "      description: Comma separated station types, edge types or event origins; '*' for all",
    "      schema:",
    "        type: string",
    "    datatypes:",
    "      name: datatypes",
    "      in: path",
    "      required: true",
    "      description: Comma separated data types; '*' for all",
    "      schema:",
    "        type: string",
    "    from:",
    "      name: from",
    "      in: path",
    "      required: true",
    "      description: \"Start of the interval, yyyy-MM-dd[T[HH][:mm][:ss][.SSS]][Z][z]\"",
    "      schema:",
    "        type: string",
    "    to:",
    "      name: to",
    "      in: path",
    "      required: true",
    "      description: \"End of the interval, yyyy-MM-dd[T[HH][:mm][:ss][.SSS]][Z][z]\"",
    "      schema:",
    "        type: string",
    "    limit:",
    "      name: limit",
    "      in: query",
    "      schema:",
    "        type: integer",
    "        default: 200",
    "    offset:",
    "      name: offset",
    "      in: query",
    "      schema:",
    "        type: integer",
    "        default: 0",
    "    select:",
    "      name: select",
    "      in: query",
    "      schema:",
    "        type: string",
    "    where:",
    "      name: where",
    "      in: query",
    "      schema:",
    "        type: string",
    "    shownull:",
    "      name: shownull",
    "      in: query",
    "      schema:",
    "        type: boolean",
    "        default: false",
    "    distinct:",
    "      name: distinct",
    "      in: query",
    "      schema:",
    "        type: boolean",
    "        default: true",
    "    timezone:",
    "      name: timezone",
    "      in: query",
    "      schema:",
    "        type: string",
    "        default: UTC",
    "  schemas:",
    "    Page:",
    "      type: object",
    "      properties:",
    "        offset:",
    "          type: integer",
    "        limit:",
    "          type: integer",
    "        data:",
    "          oneOf:",
    "            - type: array",
    "              items:",
    "                type: object",
    "            - type: object",
    "    Error:",
    "      type: object",
    "      properties:",
    "        message:",
    "          type: string",
    "        timestamp:",
    "          type: string",
    "        code:",
    "          type: integer",
    "        error:",
    "          type: string",
    "        description:",
    "          type: string",
    "        hint:",
    "          type: string",
    "        policy:",
    "          type: string",
    "        info:",
    "          type: object",
    "  responses:",
    "    Page:",
    "      description: Records in the requested representation",
    "      content:",
    "        application/json:",
    "          schema:",
    "            $ref: \"#/components/schemas/Page\"",
    "    Error:",
    "      description: Request failed",
    "      content:",
    "        application/json:",
    "          schema:",
    "            $ref: \"#/components/schemas/Error\"",
    "paths:",
    "  /\x7brepresentation\x7d:",
    "    get:",
    "      summary: Station types, edge types or event origins",
    "      parameters:",
    "        - $ref: \"#/components/parameters/representation\"",
    "      responses:",
    "        \"200\":",
    "          description: Distinct identifiers with links",
    "          content:",
    "            application/json:",
    "              schema:",
    "                type: array",
    "                items:",
    "                  type: object",
    "        default:",
    "          $ref: \"#/components/responses/Error\"",
    "  /\x7brepresentation\x7d/\x7btypes\x7d:",
    "    get:",
    "      summary: Stations, edges or events",
    "      parameters:",
    "        - $ref: \"#/components/parameters/representation\"",
    "        - $ref: \"#/components/parameters/types\"",
    "        - $ref: \"#/components/parameters/limit\"",
    "        - $ref: \"#/components/parameters/offset\"",
    "        - $ref: \"#/components/parameters/select\"",
    "        - $ref: \"#/components/parameters/where\"",
    "        - $ref: \"#/components/parameters/shownull\"",
    "        - $ref: \"#/components/parameters/distinct\"",
    "        - $ref: \"#/components/parameters/timezone\"",
    "      responses:",
    "        \"200\":",
    "          $ref: \"#/components/responses/Page\"",
    "        default:",
    "          $ref: \"#/components/responses/Error\"",
    "  /\x7brepresentation\x7d/\x7btypes\x7d/\x7bdatatypes\x7d:",
    "    get:",
    "      summary: Stations with their data types, or events from a start time or 'latest'",
    "      parameters:",
    "        - $ref: \"#/components/parameters/representation\"",
    "        - $ref: \"#/components/parameters/types\"",
    "        - $ref: \"#/components/parameters/datatypes\"",
    "        - $ref: \"#/components/parameters/limit\"",
    "        - $ref: \"#/components/parameters/offset\"",
    "        - $ref: \"#/components/parameters/select\"",
    "        - $ref: \"#/components/parameters/where\"",
    "        - $ref: \"#/components/parameters/shownull\"",
    "        - $ref: \"#/components/parameters/distinct\"",
    "        - $ref: \"#/components/parameters/timezone\"",
    "      responses:",
    "        \"200\":",
    "          $ref: \"#/components/responses/Page\"",
    "        default:",
    "          $ref: \"#/components/responses/Error\"",
    "  /\x7brepresentation\x7d/\x7btypes\x7d/\x7bdatatypes\x7d/latest:",
    "    get:",
    "      summary: Most recent measurement per station and data type",
    "      parameters:",
    "        - $ref: \"#/components/parameters/representation\"",
    "        - $ref: \"#/components/parameters/types\"",
    "        - $ref: \"#/components/parameters/datatypes\"",
    "        - $ref: \"#/components/parameters/limit\"",
    "        - $ref: \"#/components/parameters/offset\"",
    "        - $ref: \"#/components/parameters/select\"",
    "        - $ref: \"#/components/parameters/where\"",
    "        - $ref: \"#/components/parameters/shownull\"",
    "        - $ref: \"#/components/parameters/distinct\"",
    "        - $ref: \"#/components/parameters/timezone\"",
    "      responses:",
    "        \"200\":",
    "          $ref: \"#/components/responses/Page\"",
    "        default:",
    "          $ref: \"#/components/responses/Error\"",
    "  /\x7brepresentation\x7d/\x7btypes\x7d/metadata/history:",
    "    get:",
    "      summary: Stations with the history of their metadata",
    "      parameters:",
    "        - $ref: \"#/components/parameters/representation\"",
    "        - $ref: \"#/components/parameters/types\"",
    "        - name: from",
    "          in: query",
    "          schema:",
    "            type: string",
    "        - name: to",
    "          in: query",
    "          schema:",
    "            type: string",
    "        - $ref: \"#/components/parameters/limit\"",
    "        - $ref: \"#/components/parameters/offset\"",
    "        - $ref: \"#/components/parameters/select\"",
    "        - $ref: \"#/components/parameters/where\"",
    "      responses:",
    "        \"200\":",
    "          $ref: \"#/components/responses/Page\"",
    "        default:",
    "          $ref: \"#/components/responses/Error\"",
    "  /\x7brepresentation\x7d/\x7btypes\x7d/\x7bdatatypes\x7d/\x7bfrom\x7d/\x7bto\x7d:",
    "    get:",
    "      summary: Measurement history within [from, to)",
    "      parameters:",
    "        - $ref: \"#/components/parameters/representation\"",
    "        - $ref: \"#/components/parameters/types\"",
    "        - $ref: \"#/components/parameters/datatypes\"",
    "        - $ref: \"#/components/parameters/from\"",
    "        - $ref: \"#/components/parameters/to\"",
    "        - $ref: \"#/components/parameters/limit\"",
    "        - $ref: \"#/components/parameters/offset\"",
    "        - $ref: \"#/components/parameters/select\"",
    "        - $ref: \"#/components/parameters/where\"",
    "        - $ref: \"#/components/parameters/shownull\"",
    "        - $ref: \"#/components/parameters/distinct\"",
    "        - $ref: \"#/components/parameters/timezone\"",
    "      responses:",
    "        \"200\":",
    "          $ref: \"#/components/responses/Page\"",
    "        \"429\":",
    "          $ref: \"#/components/responses/Error\"",
    "        default:",
    "          $ref: \"#/components/responses/Error\"",
    ""
  ]

/-- The document at the root of a gateway with some URL. -/
def root (url : String) : String :=
  fill "__URL__" url (join "\n" rootLines)

/-- The description of the interface of a gateway with some URL. -/
def description (url : String) : String :=
  fill "__ODH_SERVER_URL__" url (join "\n" descriptionLines)

end StationGateway.Document
