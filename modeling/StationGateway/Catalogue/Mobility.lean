import StationGateway.Catalogue.Basic

/-!
# The mobility catalogue

The target lists of the API: stations with their parents, metadata and data types, measurements with
their provenance, edges between stations, and events with their locations.

Measured values are kept in three tables, which are stitched together row by row. So each of the
three value lists projects all three value columns, under the same labels and in the same order, and
the rows fold them back into `mvalue`.
-/

namespace StationGateway.Mobility

/-- Attaches as one object under a target of a parent. -/
def inlineIn (parent target : String) : LookUp :=
  ⟨.inline, some parent, some target, none⟩

/-- Attaches as a field of a parent. -/
def mergeInto (parent target : String) : LookUp :=
  ⟨.merge, some parent, some target, none⟩

/-- Attaches as an element under a target of a parent. -/
def listIn (parent target : String) : LookUp :=
  ⟨.list, some parent, some target, none⟩

/-- Attaches as an entry, named by a key column, under a target of a parent. -/
def mapIn (parent target key : String) : LookUp :=
  ⟨.map, some parent, some target, some key⟩

/-- Attaches as an entry of the root, named by a key column. -/
def mapAtRoot (key : String) : LookUp :=
  ⟨.map, none, none, some key⟩

/-- An attribute that is a column. -/
def column (name expression : String) : Attribute :=
  .plain name (.column expression)

/-- An attribute that points to child lists. -/
def pointer (name : String) (children : List String) : Attribute :=
  .plain name (.pointer children)

/-- A time column, shown in UTC. -/
def utcColumn (name expression : String) : Attribute :=
  { column name expression with columnFormat := "timezone('UTC', %s)" }

/-- A geometry column, shown as GeoJSON with nine decimals, a bounding box and a short reference
system. -/
def geoColumn (name expression : String) : Attribute :=
  { column name expression with columnFormat := "st_asgeojson(%s, 9, 3)::jsonb" }

/-- A value column of one of the three tables of measured values. -/
def valueColumn (name expression format : String) (scalarOnly : Bool) : Attribute :=
  { column name expression with
    publicName := some "mvalue"
    label := some name
    selectFormat := format
    scalarOnly := scalarOnly }

/-- What the measurements of all three tables have in common. -/
def measurement : TargetList where
  name := "measurement"
  lookUp := listIn "datatype" "tmeasurements"
  attributes :=
    [ utcColumn "mvalidtime" "me.timestamp"
    , utcColumn "mtransactiontime" "me.created_on"
    , column "mperiod" "me.period"
    , pointer "mprovenance" ["provenance"] ]

/-- The values of numeric measurements. -/
def measurementDouble : TargetList where
  name := "measurementdouble"
  lookUp := mergeInto "measurement" "mvalue"
  attributes :=
    [ valueColumn "mvalue_double" "me.double_value"
        "%s, null::character varying as mvalue_string, null::jsonb as mvalue_json" true ]

/-- The values of textual measurements. -/
def measurementString : TargetList where
  name := "measurementstring"
  lookUp := mergeInto "measurement" "mvalue"
  attributes :=
    [ valueColumn "mvalue_string" "me.string_value"
        "null::double precision as mvalue_double, %s, null::jsonb as mvalue_json" true ]

/-- The values of structured measurements. -/
def measurementJson : TargetList where
  name := "measurementjson"
  lookUp := mergeInto "measurement" "mvalue"
  attributes :=
    [ valueColumn "mvalue_json" "me.json_value"
        ("null::double precision as mvalue_double, " ++
          "null::character varying as mvalue_string, %s") false ]

/-- Who collected measurements. -/
def provenance : TargetList where
  name := "provenance"
  lookUp := inlineIn "measurement" "mprovenance"
  attributes :=
    [ column "prname" "pr.data_collector"
    , column "prversion" "pr.data_collector_version"
    , column "prlineage" "pr.lineage" ]

/-- What is measured. -/
def datatype : TargetList where
  name := "datatype"
  lookUp := mapIn "station" "sdatatypes" "_datatypename"
  attributes :=
    [ column "tname" "t.cname"
    , column "tunit" "t.cunit"
    , column "ttype" "t.rtype"
    , column "tdescription" "t.description"
    , column "tmetadata" "tm.json"
    , pointer "tmeasurements"
        ["measurement", "measurementdouble", "measurementstring", "measurementjson"] ]

/-- The station that a station belongs to. -/
def parent : TargetList where
  name := "parent"
  lookUp := inlineIn "station" "sparent"
  attributes :=
    [ column "pname" "p.name"
    , column "ptype" "p.stationtype"
    , column "pcode" "p.stationcode"
    , column "porigin" "p.origin"
    , column "pactive" "p.active"
    , column "pavailable" "p.available"
    , column "pcoordinate" "p.pointprojection"
    , column "pmetadata" "pm.json" ]

/-- The metadata records of a station over time. -/
def metadataHistory : TargetList where
  name := "metadatahistory"
  lookUp := listIn "station" "smetadatahistory"
  attributes :=
    [ utcColumn "mhtransactiontime" "mh.created_on"
    , column "mhmetadata" "mh.json" ]

/-- Stations. -/
def station : TargetList where
  name := "station"
  lookUp := mapIn "stationtype" "stations" "_stationcode"
  attributes :=
    [ column "sname" "s.name"
    , column "stype" "s.stationtype"
    , column "scode" "s.stationcode"
    , column "sorigin" "s.origin"
    , column "sactive" "s.active"
    , column "savailable" "s.available"
    , column "scoordinate" "s.pointprojection"
    , column "smetadata" "m.json"
    , pointer "sparent" ["parent"]
    , pointer "sdatatypes" ["datatype"]
    , pointer "smetadatahistory" ["metadatahistory"] ]

/-- The station that an edge starts from. -/
def stationBegin : TargetList where
  name := "stationbegin"
  lookUp := inlineIn "edge" "ebegin"
  attributes :=
    [ column "sbname" "o.name"
    , column "sbtype" "o.stationtype"
    , column "sbcode" "o.stationcode"
    , column "sborigin" "o.origin"
    , column "sbactive" "o.active"
    , column "sbavailable" "o.available"
    , column "sbcoordinate" "o.pointprojection" ]

/-- The station that an edge leads to. -/
def stationEnd : TargetList where
  name := "stationend"
  lookUp := inlineIn "edge" "eend"
  attributes :=
    [ column "sename" "d.name"
    , column "setype" "d.stationtype"
    , column "secode" "d.stationcode"
    , column "seorigin" "d.origin"
    , column "seactive" "d.active"
    , column "seavailable" "d.available"
    , column "secoordinate" "d.pointprojection" ]

/-- Edges. -/
def edge : TargetList where
  name := "edge"
  lookUp := mapIn "edgetype" "edges" "_edgecode"
  attributes :=
    [ column "ename" "i.name"
    , column "etype" "i.stationtype"
    , column "ecode" "i.stationcode"
    , column "eorigin" "i.origin"
    , column "eactive" "i.active"
    , column "eavailable" "i.available"
    , column "edirected" "e.directed"
    , geoColumn "egeometry" "st_transform(e.linegeometry, 4326)"
    , pointer "ebegin" ["stationbegin"]
    , pointer "eend" ["stationend"] ]

/-- Stations by type. -/
def stationType : TargetList where
  name := "stationtype"
  lookUp := mapAtRoot "_stationtype"
  attributes := [pointer "stations" ["station"]]

/-- Edges by type. -/
def edgeType : TargetList where
  name := "edgetype"
  lookUp := mapAtRoot "_edgetype"
  attributes := [pointer "edges" ["edge"]]

/-- Where an event takes place. -/
def location : TargetList where
  name := "location"
  lookUp := ⟨.inline, some "event", some "evlocation", some "_locationid"⟩
  attributes :=
    [ column "evldescription" "loc.description"
    , geoColumn "evlgeometry" "st_transform(loc.geometry, 4326)" ]

/-- Who collected events. -/
def provenanceEvent : TargetList where
  name := "provenanceevent"
  lookUp := inlineIn "event" "evprovenance"
  attributes := provenance.attributes

/-- Events. -/
def event : TargetList where
  name := "event"
  lookUp := mapIn "eventseries" "events" "_eventuuid"
  attributes :=
    [ column "evcategory" "ev.category"
    , column "evseriesuuid" "ev.event_series_uuid"
    , column "evtransactiontime" "ev.created_on"
    , column "evdescription" "ev.description"
    , column "evstart" "lower(ev.event_interval)"
    , column "evend" "upper(ev.event_interval)"
    , column "evorigin" "ev.origin"
    , column "evuuid" "ev.uuid"
    , column "evname" "ev.name"
    , column "evmetadata" "evm.json"
    , pointer "evlocation" ["location"]
    , pointer "evprovenance" ["provenanceevent"] ]

/-- Events by series. -/
def eventSeries : TargetList where
  name := "eventseries"
  lookUp := mapIn "eventorigin" "eventseries" "_eventseriesuuid"
  attributes := [pointer "events" ["event"]]

/-- Events by origin. -/
def eventOrigin : TargetList where
  name := "eventorigin"
  lookUp := mapAtRoot "_eventorigin"
  attributes := [pointer "eventseries" ["eventseries"]]

/-- The lists of the API, by ascending name. -/
def lists : List TargetList :=
  [ datatype, edge, edgeType, event, eventOrigin, eventSeries, location, measurement,
    measurementDouble, measurementJson, measurementString, metadataHistory, parent, provenance,
    provenanceEvent, station, stationBegin, stationEnd, stationType ]

/-- The catalogue of the API. -/
def catalogue : Catalogue :=
  ⟨lists⟩

end StationGateway.Mobility
